import Rally.Proofs.Player.Buildable
/-!
# Loops of two players

An initiator and a responder whose ports for both directions are joined by one link send one message back and
forth. So each of them receives as many messages as the initiator waits for, one after the other, and the
run ends when the link was passed twice as often.
-/

namespace Rally

/-- Whether a topology consists of an initiator that is to play so many rounds and a responder, whose ports for
both directions are joined by one link of a latency. -/
structure Topology.Loops (topology : Topology) (ping pong : ComponentSpec) (rounds : Nat)
    (latency : Duration) : Prop where
  /-- There are no other components. -/
  components : topology.components.Perm [ping, pong]
  /-- They have different names. -/
  distinct : ping.name ≠ pong.name
  /-- One of them is an initiator. -/
  initiator : ping.type = Role.initiator.type
  /-- The other one is a responder. -/
  responder : pong.type = Role.responder.type
  /-- The initiator is told to play so many rounds. -/
  told : ∃ params, Assembly.paramTexts ping = .ok params ∧ Player.rounds? params = .ok rounds
  /-- The parameters of the responder have texts. -/
  texts : ∃ params, Assembly.paramTexts pong = .ok params
  /-- One link joins their ports, and takes some time between different ranks. -/
  joined : ∃ link side, topology.links = [link] ∧ link.endAt side = ⟨ping.name, "inout"⟩ ∧
    link.endAt side.opposite = ⟨pong.name, "inout"⟩ ∧ Duration.ofSeconds link.latency = .ok latency
  /-- Between different ranks it takes some time. -/
  slow : ping.rank ≠ pong.rank → latency ≠ Duration.zero

namespace Topology.Loops

variable {topology : Topology} {ping pong : ComponentSpec} {rounds : Nat} {latency : Duration}
  (loops : topology.Loops ping pong rounds latency)

include loops

/-- A component is the initiator or the responder. -/
theorem mem_components {spec : ComponentSpec} :
    spec ∈ topology.components ↔ spec = ping ∨ spec = pong := by
  rw [loops.components.mem_iff, List.mem_pair]

/-- An end of a link is at a port for both directions of a component. -/
theorem exists_end {link : LinkSpec} (inside : link ∈ topology.links) (side : Side) :
    ∃ spec ∈ topology.components, link.endAt side = ⟨spec.name, "inout"⟩ := by
  obtain ⟨other, turn, links, here, there, -⟩ := loops.joined
  rw [links, List.mem_singleton] at inside
  subst inside
  by_cases same : side = turn
  · exact ⟨ping, loops.mem_components.mpr (Or.inl rfl), same ▸ here⟩
  · exact ⟨pong, loops.mem_components.mpr (Or.inr rfl), Side.eq_opposite same ▸ there⟩

/-- A link is attached to the port for both directions of each component. -/
theorem wires {spec : ComponentSpec} (inside : spec ∈ topology.components) :
    topology.Wires ⟨spec.name, "inout"⟩ := by
  obtain ⟨link, side, links, here, there, -⟩ := loops.joined
  have among : link ∈ topology.links := links ▸ List.mem_singleton_self link
  rcases loops.mem_components.mp inside with rfl | rfl
  · exact ⟨link, among, side, here⟩
  · exact ⟨link, among, side.opposite, there⟩

/-- None is attached to any other one. -/
theorem not_wires {endpoint : Endpoint} (other : endpoint.port ≠ "inout") : ¬ topology.Wires endpoint := by
  rintro ⟨link, inside, side, rfl⟩
  obtain ⟨spec, -, same⟩ := loops.exists_end inside side
  exact other (congrArg Endpoint.port same)

/-- The initiator is told to play so many rounds. -/
theorem tells : topology.Tells rounds := by
  intro spec inside type params texts
  rcases loops.mem_components.mp inside with rfl | rfl
  · obtain ⟨others, same, told⟩ := loops.told
    rw [texts] at same
    exact Except.ok.inj same ▸ told
  · rw [loops.responder] at type
    exact absurd type (by decide)

/-- The types of both players are known, and their parameters have texts. -/
theorem exists_type {spec : ComponentSpec} (inside : spec ∈ topology.components) :
    (∃ type, Player.registry.get? spec.type = some type ∧ type.ports = Play.ports) ∧
      ∃ params, Assembly.paramTexts spec = .ok params := by
  rcases loops.mem_components.mp inside with rfl | rfl
  · exact ⟨loops.initiator ▸ Player.exists_type .initiator, loops.told.imp fun _ => And.left⟩
  · exact ⟨loops.responder ▸ Player.exists_type .responder, loops.texts⟩

/-- The topology passes the check. -/
theorem sound : topology.Sound Player.registry := by
  obtain ⟨link, side, links, here, there, takes⟩ := loops.joined
  have only {other : LinkSpec} (inside : other ∈ topology.links) : other = link :=
    List.mem_singleton.mp (links ▸ inside)
  refine ⟨?_, fun spec inside => ?_, ?_, fun other inside => ?_, fun other inside => ?_, ?_,
    fun other inside turn => ?_, fun other inside first one second two _ _ ranks => ?_⟩
  · rw [loops.components.pairwise_iff Ne.symm]
    exact List.pairwise_pair.mpr loops.distinct
  · obtain ⟨⟨type, known, -⟩, params⟩ := loops.exists_type inside
    exact ⟨known ▸ rfl, params⟩
  · rw [links]
    exact List.pairwise_singleton _ _
  · exact ⟨latency, only inside ▸ takes⟩
  · obtain rfl := only inside
    intro same
    have names : (other.endAt side).component ≠ (other.endAt side.opposite).component := by
      rw [here, there]
      exact loops.distinct
    cases side with
    | a => exact names (congrArg Endpoint.component same)
    | b => exact names (congrArg Endpoint.component same.symm)
  · rw [links]
    exact List.pairwise_singleton _ _
  · obtain ⟨spec, among, same⟩ := loops.exists_end inside turn
    obtain ⟨⟨type, known, ports⟩, -⟩ := loops.exists_type among
    exact ⟨spec, among, type, same ▸ rfl, known, by rw [same, ports]; rfl⟩
  · obtain rfl := only inside
    rw [takes]
    refine fun none => loops.slow ?_ (Except.ok.inj none)
    rcases loops.mem_components.mp one with rfl | rfl <;>
      rcases loops.mem_components.mp two with rfl | rfl
    · exact absurd rfl ranks
    · exact ranks
    · exact ranks.symm
    · exact absurd rfl ranks

/-- Two players that are joined are built. -/
theorem playable : topology.Playable :=
  ⟨loops.sound, fun spec inside type params texts => ⟨rounds, loops.tells spec inside type params texts⟩,
    fun _ inside => Or.inl ⟨loops.wires inside, loops.not_wires (show "input" ≠ "inout" by decide),
      loops.not_wires (show "output" ≠ "inout" by decide)⟩⟩

end Topology.Loops

/-- Whether an initiator and a responder hear each other over one latency, and nobody else is there. -/
structure Circuit.Couple (circuit : Circuit) (first second : ComponentId) (latency : Duration) :
    Prop where
  /-- These are all players. -/
  inside : ∀ id, id < circuit.count ↔ id = first ∨ id = second
  /-- One of them is an initiator. -/
  initiates : (circuit.player first).initiates = true
  /-- The other one is not. -/
  answers : (circuit.player second).initiates = false
  /-- The one hears the other one. -/
  near : circuit.prev first = second
  /-- The other one hears it. -/
  far : circuit.prev second = first
  /-- All messages take equally long. -/
  latency : ∀ id < circuit.count, (circuit.ear id).latency circuit.links = latency
  /-- Both say the same word over and over. -/
  loop : ∀ id < circuit.count, (circuit.player id).play.isRelay = false

/-- A player that does not spell the way of messages answers with its word. -/
theorem Player.reply_of_loop {player : Player} (loop : player.play.isRelay = false)
    (received : String) : player.reply received = player.word := by
  rcases player with ⟨play, _⟩ | ⟨play, _⟩ <;> cases play
  · rfl
  · cases loop
  · rfl
  · cases loop

/-- Its word tells its role alone. -/
theorem Player.word_of_loop {player : Player} (loop : player.play.isRelay = false) :
    player.word = Play.fixed player.role := by
  rcases player with ⟨play, _⟩ | ⟨play, _⟩ <;> cases play
  · rfl
  · cases loop
  · rfl
  · cases loop

/-- A player that is no initiator is a responder. -/
theorem Player.eq_pong_of_not_initiates {player : Player} (answers : player.initiates = false) :
    ∃ self, player = .pong self := by
  cases player with
  | ping => cases answers
  | pong self => exact ⟨self, rfl⟩

namespace Circuit.Couple

variable {circuit : Circuit} {first second id : ComponentId} {latency : Duration} {reach : Nat}
  (couple : circuit.Couple first second latency)

include couple

/-- There is no other initiator. -/
theorem eq_first (within : id < circuit.count) (initiates : (circuit.player id).initiates = true) :
    id = first := by
  rcases (couple.inside id).mp within with rfl | rfl
  · rfl
  · rw [couple.answers] at initiates
    cases initiates

/-- Behind the initiator the two players take turns. -/
theorem iterate_prev (hops : Nat) :
    circuit.prev^[hops] first = if hops % 2 = 0 then first else second := by
  induction hops with
  | zero => rfl
  | succ hops ih =>
    rw [Function.iterate_succ_apply', ih]
    by_cases even : hops % 2 = 0
    · rw [if_pos even, if_neg (by omega), couple.near]
    · rw [if_neg even, if_pos (by omega), couple.far]

/-- Every second one of them is the initiator itself. -/
theorem length_origins (hops : Nat) : (circuit.origins hops first).length = hops / 2 := by
  induction hops with
  | zero => rfl
  | succ hops ih =>
    rw [origins_concat, List.length_append, ih, begins, couple.iterate_prev]
    by_cases odd : hops % 2 = 1
    · rw [if_pos (show (hops + 1) % 2 = 0 by omega), if_pos couple.initiates, List.length_singleton]
      omega
    · rw [if_neg (show ¬ (hops + 1) % 2 = 0 by omega), couple.answers, if_neg Bool.false_ne_true,
        List.length_nil]
      omega

/-- It meets itself as often as it waits for messages. -/
theorem meets (within : id < circuit.count) (initiates : (circuit.player id).initiates = true) :
    circuit.Meets id (2 * patience circuit.rounds) := by
  obtain rfl := couple.eq_first within initiates
  refine ⟨?_, fun fewer less => ?_⟩
  · rw [couple.length_origins]
    omega
  · rw [couple.length_origins]
    omega

/-- Both players hear as many messages as the initiator waits for. -/
theorem length_arrivals (reaches : circuit.Reaches reach) (within : id < circuit.count) :
    (circuit.arrivals reach id).length = patience circuit.rounds := by
  refine Circuit.length_arrivals reaches within ?_
  rcases (couple.inside id).mp within with rfl | rfl
  · exact lively_of_initiates within couple.initiates
  · refine ⟨0, ?_⟩
    rw [begins, Function.iterate_one, couple.far]
    exact couple.initiates

/-- A message takes equally long for each hop. -/
theorem lag_eq (within : id < circuit.count) (hops : Nat) :
    circuit.lag hops id = (hops + 1) * latency.toNanos := by
  have each : ∀ hop ∈ Finset.range (hops + 1),
      ((circuit.ear (circuit.prev^[hop] id)).latency circuit.links).toNanos = latency.toNanos :=
    fun hop _ => congrArg Duration.toNanos (couple.latency _ (iterate_lt within hop))
  rw [lag_eq_sum, Finset.sum_congr rfl each, Finset.sum_const, Finset.card_range, smul_eq_mul]

/-- The last message that the initiator waits for passes twice as many links, as far as there are
instants. -/
theorem toNanos_voyage : (circuit.voyage (2 * patience circuit.rounds - 1) first).1.toNanos =
    min (2 * patience circuit.rounds * latency.toNanos) Instant.max.toNanos := by
  have positive := patience_pos circuit.rounds
  rw [Circuit.toNanos_voyage, couple.lag_eq ((couple.inside first).mpr (Or.inl rfl)),
    Nat.sub_add_cancel (by omega)]

/-- All that a player hears is the word of the other one. -/
theorem getLast?_texts (reaches : circuit.Reaches reach) (within : id < circuit.count) :
    ((circuit.arrivals reach id).map Prod.snd).getLast? =
      some (Play.fixed (circuit.player (circuit.prev id)).role) := by
  have texts (hops : Nat) :
      (circuit.voyage hops id).2 = (circuit.player (circuit.prev id)).word := by
    cases hops with
    | zero => rfl
    | succ hops => exact Player.reply_of_loop (couple.loop _ (prev_lt within)) _
  cases last : ((circuit.arrivals reach id).map Prod.snd).getLast? with
  | none =>
    have length := couple.length_arrivals reaches within
    rw [List.getLast?_eq_none_iff, List.map_eq_nil_iff] at last
    rw [last] at length
    exact absurd length.symm (patience_pos circuit.rounds).ne'
  | some text =>
    obtain ⟨arrival, among, rfl⟩ := List.mem_map.mp (List.mem_of_getLast? last)
    obtain ⟨hops, -, rfl⟩ := List.mem_map.mp among
    rw [texts, Player.word_of_loop (couple.loop _ (prev_lt within))]

end Circuit.Couple

namespace Simulation

variable {options : Options} {topology : Topology} {clock moment : Instant} {journal : Journal}
  {simulation : Simulation Player} {assembly : Assembly Player} {ping pong : ComponentSpec}
  {rounds reach hops : Nat} {latency : Duration}
  (built : (build Player.registry options topology clock journal).2 = .ok simulation)
  (realizes : simulation.Realizes Player.registry topology assembly)
  (loops : topology.Loops ping pong rounds latency)

include loops

/-- The one link joins ports for both directions. -/
theorem port_of_loops (follows : assembly.Follows Player.registry topology) {link : LinkId}
    (known : link < assembly.links.size) (side : Side) :
    ((assembly.links.getD link default).endAt side).port = 0 := by
  obtain ⟨definition, there⟩ := follows.exists_link known
  obtain ⟨spec, -, same⟩ := loops.exists_end (List.mem_of_getElem? there) side
  obtain ⟨-, _, -, -, port⟩ := follows.end_of_player there side
  rw [same] at port
  exact (Option.some.inj port).symm

include built

/-- Both players use one port in both directions. -/
theorem loop_of_loops {id : ComponentId} {seat : Seat Player}
    (there : simulation.places id = some seat) : seat.slot.component.play = .loop 0 := by
  obtain ⟨other, also, made⟩ := made_of_places built
  obtain ⟨spec, part, votes, known, present, -, -, -, player⟩ := made id seat there
  have attached := (also.follows.isSome_lookup known present (show portId? Play.ports "inout" = some 0
    from rfl)).mpr (loops.wires (List.mem_of_getElem? known))
  have configured := player.configured
  generalize seat.slot.component.play = play, seat.slot.ports = ports at configured
  cases configured with
  | loop => rfl
  | relay inout =>
    rw [inout] at attached
    cases attached

include realizes

/-- Two players that are joined are a circuit. -/
theorem circular_of_loops :
    Circular assembly.links simulation.places topology.components.length rounds :=
  circular_of_build built realizes loops.tells fun way known seat other here there => by
    rw [loop_of_loops built loops here, loop_of_loops built loops there]
    exact iff_of_true (port_of_loops loops realizes.follows known _)
      (port_of_loops loops realizes.follows known _)

variable (circular : Circular assembly.links simulation.places topology.components.length rounds)

/-- Each player hears over the way that leads to it. -/
theorem ear_of_loops {id : ComponentId} {spec : ComponentSpec}
    (known : topology.components[id]? = some spec) {link : LinkSpec} {side : Side}
    (first : topology.links[0]? = some link) (here : link.endAt side = ⟨spec.name, "inout"⟩) :
    circular.circuit.ear id = ⟨0, side.opposite⟩ := by
  obtain ⟨seat, there⟩ := circular.exists_seat (List.getElem?_eq_some_iff.mp known).1
  obtain ⟨size, _, found, name, -⟩ := realizes.follows.end_of_player first side
  rw [here] at name
  refine (circular.ear_eq there).trans (circular.eq_ear there size ?_ ?_).symm
  · rw [Way.far, Side.opposite_opposite]
    exact realizes.follows.position_eq known found name
  · rw [loop_of_loops built loops there]
    exact port_of_loops loops realizes.follows size _

/-- A player hears the one at the other end of the link. -/
theorem prev_of_loops {id behind : ComponentId} {spec other : ComponentSpec}
    (known : topology.components[id]? = some spec)
    (there : topology.components[behind]? = some other) {link : LinkSpec} {side : Side}
    (first : topology.links[0]? = some link) (here : link.endAt side = ⟨spec.name, "inout"⟩)
    (away : link.endAt side.opposite = ⟨other.name, "inout"⟩) :
    circular.circuit.prev id = behind := by
  obtain ⟨-, _, found, name, -⟩ := realizes.follows.end_of_player first side.opposite
  rw [away] at name
  rw [Circuit.prev, ear_of_loops built realizes loops circular known first here]
  exact realizes.follows.position_eq there found name

/-- Two players that are joined are a couple. -/
theorem couple_of_loops {first second : Nat}
    (here : topology.components[first]? = some ping)
    (there : topology.components[second]? = some pong) :
    circular.circuit.Couple first second latency := by
  obtain ⟨link, side, links, source, target, takes⟩ := loops.joined
  have differ : first ≠ second := by
    rintro rfl
    exact loops.distinct (congrArg ComponentSpec.name (Option.some.inj (here.symm.trans there)))
  have inside (id : Nat) : id < topology.components.length ↔ id = first ∨ id = second := by
    have count : topology.components.length = 2 := loops.components.length_eq
    have one := (List.getElem?_eq_some_iff.mp here).1
    have two := (List.getElem?_eq_some_iff.mp there).1
    omega
  have only : topology.links[0]? = some link := links ▸ rfl
  refine ⟨inside, ?_, ?_, ?_, ?_, ?_, ?_⟩
  · exact (initiates_iff built circular here).mpr loops.initiator
  · rw [Bool.eq_false_iff, ne_eq, initiates_iff built circular there, loops.responder]
    decide
  · exact prev_of_loops built realizes loops circular here there only source target
  · exact prev_of_loops built realizes loops circular there here only target
      ((Side.opposite_opposite side).symm ▸ source)
  · intro id within
    obtain ⟨spec, found⟩ := realizes.follows.exists_link (circular.circuit.known id within)
    have inside := List.mem_of_getElem? found
    rw [links, List.mem_singleton] at inside
    have same := realizes.follows.latency_eq found
    rw [inside, takes] at same
    exact (Except.ok.inj same).symm
  · intro id within
    obtain ⟨seat, place⟩ := circular.exists_seat within
    rw [circular.player_eq place, loop_of_loops built loops place]
    rfl

end Simulation

/-- What the report of the run of a loop tells. -/
structure Report.Rallies (ping pong : String) (rounds : Nat) (latency : Duration)
    (report : Report Player) : Prop where
  /-- All voters are ready. -/
  reason : report.reason = .allVotersReady
  /-- The link was passed twice for each message that the initiator waits for. -/
  endTime : report.endTime.toNanos = 2 * patience rounds * latency.toNanos
  /-- The initiator played as many rounds, and is ready. -/
  initiator : ∃ self : Ping, report.component? ping = some (.ping self) ∧
    self.roundCount = patience rounds ∧ self.received = patience rounds ∧
    self.sent = patience rounds ∧ self.voter = .ready ∧ self.last = some "pong"
  /-- The responder answered as often. -/
  responder : ∃ self : Pong, report.component? pong = some (.pong self) ∧
    self.sent = patience rounds ∧ self.received = patience rounds ∧ self.last = some "ping"
  /-- Both directions of the link carried as many messages. -/
  carried : ∃ traffic, report.links = [traffic] ∧
    ∀ side, traffic.leaving side = ⟨patience rounds, patience rounds⟩
  /-- Nothing is left. -/
  settled : ∀ rank ∈ report.ranks, rank.pending = 0

namespace Simulation

variable {options : Options} {topology : Topology} {clock moment : Instant} {journal : Journal}
  {simulation : Simulation Player} {assembly : Assembly Player} {ping pong : ComponentSpec}
  {rounds reach : Nat} {latency : Duration} {first second : Nat} {report : Report Player}
  (built : (build Player.registry options topology clock journal).2 = .ok simulation)
  (realizes : simulation.Realizes Player.registry topology assembly)
  (loops : topology.Loops ping pong rounds latency)
  {circular : Circular assembly.links simulation.places topology.components.length rounds}
  (here : topology.components[first]? = some ping)
  (there : topology.components[second]? = some pong)
  (reaches : circular.circuit.Reaches reach)
  (concluded : circular.circuit.Concludes reach simulation.places report)

include built realizes loops here there reaches concluded

/-- Both directions of the link of a loop carry as many messages as the initiator waits for. -/
theorem traffic_of_loops : ∃ traffic, report.links = [traffic] ∧
    ∀ side, traffic.leaving side = ⟨patience rounds, patience rounds⟩ := by
  obtain ⟨link, side, links, source, target, -⟩ := loops.joined
  have couple := couple_of_loops built realizes loops circular here there
  have whole : report.links.length = topology.links.length :=
    concluded.whole.trans realizes.follows.joined.length_eq.symm
  rw [links] at whole
  have one : topology.links[0]? = some link := links ▸ rfl
  obtain ⟨traffic, only⟩ := List.length_eq_one_iff.mp whole
  have flows {id : Nat} {turn : Side} (within : id < circular.circuit.count)
      (ear : circular.circuit.ear id = ⟨0, turn⟩) :
      traffic.leaving turn = ⟨patience rounds, patience rounds⟩ := by
    obtain ⟨other, found, counts⟩ := concluded.heard id within
    rw [ear, only] at found
    rw [ear, couple.length_arrivals reaches within] at counts
    exact Option.some.inj found ▸ counts
  have answered := flows ((couple.inside first).mpr (Or.inl rfl))
    (ear_of_loops built realizes loops circular here one source)
  have begun := flows ((couple.inside second).mpr (Or.inr rfl))
    (ear_of_loops built realizes loops circular there one target)
  rw [Side.opposite_opposite] at begun
  refine ⟨traffic, only, fun turn => ?_⟩
  by_cases same : turn = side
  · exact same ▸ begun
  · exact Side.eq_opposite same ▸ answered

/-- A report that concludes the circuit of a loop tells how both players ended. -/
theorem rallies_of_concludes (reason : report.reason = .allVotersReady)
    (short : 2 * patience rounds * latency.toNanos < Instant.max.toNanos) :
    report.Rallies ping.name pong.name rounds latency := by
  have couple := couple_of_loops built realizes loops circular here there
  have one := (couple.inside first).mpr (Or.inl rfl)
  have two := (couple.inside second).mpr (Or.inr rfl)
  have meets : ∀ id < circular.circuit.count, (circular.circuit.player id).initiates = true →
      circular.circuit.Meets id (2 * patience rounds) := fun id => couple.meets
  obtain ⟨self, player⟩ := Player.eq_ping_of_initiates couple.initiates
  obtain ⟨other, answers⟩ := Player.eq_pong_of_not_initiates couple.answers
  have count {id : Nat} (within : id < circular.circuit.count) :
      ((circular.circuit.arrivals reach id).map Prod.snd).length = patience rounds :=
    (List.length_map _).trans (couple.length_arrivals reaches within)
  refine ⟨reason, ?_, ?_, ?_, traffic_of_loops built realizes loops here there reaches concluded,
    concluded.settled⟩
  · obtain ⟨⟨id, within, initiates, ends⟩, -⟩ := Circuit.Concludes.isGreatest reaches meets concluded
      ⟨first, one, couple.initiates⟩
    obtain rfl := couple.eq_first within initiates
    rw [← ends]
    exact couple.toNanos_voyage.trans (Nat.min_eq_left short.le)
  · have place := component?_of_concludes built realizes concluded here
    have last := couple.getLast?_texts reaches one
    rw [player] at place
    rw [couple.near, answers] at last
    obtain ⟨played, received, sent, ready⟩ := @Ping.behind_patience _ self _ (count one)
    exact ⟨_, place, played, received, sent, ready, last⟩
  · have place := component?_of_concludes built realizes concluded there
    have last := couple.getLast?_texts reaches two
    rw [answers] at place
    rw [couple.far, player] at last
    exact ⟨_, place, count two, count two, last⟩

omit realizes here there reaches concluded

/-- A loop runs to its end, where its link was passed twice for each message that the initiator waits
for. -/
theorem rallies_of_loops (unlimited : options.limit = .unlimited)
    (short : 2 * patience rounds * latency.toNanos < Instant.max.toNanos) {filter : Filter} :
    (∃ fuel, simulation.run fuel filter moment ≠ none) ∧
      ∀ fuel result, simulation.run fuel filter moment = some result → ∃ report,
        result.outcome = .ok report ∧ report.Rallies ping.name pong.name rounds latency := by
  obtain ⟨assembly, realizes⟩ := realizes_of_build built
  obtain ⟨first, here⟩ := List.mem_iff_getElem?.mp (loops.mem_components.mpr (Or.inl rfl))
  obtain ⟨second, there⟩ := List.mem_iff_getElem?.mp (loops.mem_components.mpr (Or.inr rfl))
  have circular := circular_of_loops built realizes loops
  have couple := couple_of_loops built realizes loops circular here there
  have reaches := circular.circuit.reaches_around
  have prompt : simulation.Prompt filter := by
    refine prompt_of_meets built realizes reaches (fun id => couple.meets) fun id within initiates => ?_
    obtain rfl := couple.eq_first within initiates
    rw [Duration.lt_iff_toNanos_lt]
    exact couple.toNanos_voyage.trans_lt ((Nat.min_le_left _ _).trans_lt short)
  obtain ⟨ends, concludes⟩ : (∃ fuel, simulation.run fuel filter moment ≠ none) ∧ _ :=
    run_of_circular built realizes reaches unlimited
      ⟨ping, List.mem_of_getElem? here, loops.initiator⟩ fun _ => prompt
  refine ⟨ends, fun fuel result runs => ?_⟩
  obtain ⟨report, ok, reason, concluded⟩ := concludes fuel result runs
  exact ⟨report, ok, rallies_of_concludes built realizes loops here there reaches concluded reason short⟩

omit built loops

/-- The ready made loop is one of two players on one rank, over a link of one second. -/
theorem loops_simpleLoop (fits : rounds < 1 <<< 64) :
    (Topology.simpleLoop rounds).Loops (Topology.player "ping" .initiator 0 rounds)
      (Topology.player "pong" .responder 0 rounds) rounds { secs := 1, nanos := 0 } where
  components := List.Perm.refl _
  distinct := show "ping" ≠ "pong" by decide
  initiator := rfl
  responder := rfl
  told := ⟨_, Topology.paramTexts_player _ _ _ _, Parameters.find_of_toString rfl fits⟩
  texts := ⟨_, Topology.paramTexts_player _ _ _ _⟩
  joined := ⟨_, .a, rfl, rfl, rfl, ofSeconds_one⟩
  slow differ := absurd rfl differ

/-- Whatever the ranks of two players on a loop and the latency of its link are, its run ends when the link
was passed twice for each message that the initiator waits for, and both players and both directions of the
link have counted as many messages. The ready made loop is such a one. -/
theorem run_of_loops (unlimited : options.limit = .unlimited) (few : rounds < 1 <<< 63)
    {filter : Filter} :
    (∀ topology ping pong latency, topology.Loops ping pong rounds latency →
      2 * patience rounds * latency.toNanos < Instant.max.toNanos → ∃ simulation,
        (build Player.registry options topology clock journal).2 = .ok simulation ∧
        (∃ fuel, simulation.run fuel filter moment ≠ none) ∧
        ∀ fuel result, simulation.run fuel filter moment = some result → ∃ report,
          result.outcome = .ok report ∧ report.Rallies ping.name pong.name rounds latency) ∧
    ∃ ping pong, ping.name = "ping" ∧ ping.rank = 0 ∧ pong.name = "pong" ∧ pong.rank = 0 ∧
      (Topology.simpleLoop rounds).Loops ping pong rounds { secs := 1, nanos := 0 } := by
  refine ⟨fun topology ping pong latency loops short => ?_, _, _, rfl, rfl, rfl, rfl,
    loops_simpleLoop (few.trans (by decide))⟩
  obtain ⟨simulation, built⟩ := exists_of_playable loops.playable options clock journal
  exact ⟨simulation, built, rallies_of_loops built loops unlimited short⟩

/-- Two players on two ranks that play two rounds over a link of one second. -/
theorem run_of_loops_apart : ∃ (simulation : Simulation Player) (fuel : Nat)
    (result : RunResult Player) (report : Report Player) (self : Ping),
    (build Player.registry {}
      ⟨[Topology.player "ping" .initiator 0 2, Topology.player "pong" .responder 1 2],
        [⟨"link", Binary64.one, ⟨"pong", "inout"⟩, ⟨"ping", "inout"⟩⟩]⟩
      Instant.zero ⟨Filter.off, #[]⟩).2 = .ok simulation ∧
    simulation.run fuel Filter.off Instant.zero = some result ∧ result.outcome = .ok report ∧
    report.reason = .allVotersReady ∧ report.endTime.toNanos = 4000000000 ∧
    report.component? "ping" = some (.ping self) ∧ self.last = some "pong" := by
  have loops : Topology.Loops
      ⟨[Topology.player "ping" .initiator 0 2, Topology.player "pong" .responder 1 2],
        [⟨"link", Binary64.one, ⟨"pong", "inout"⟩, ⟨"ping", "inout"⟩⟩]⟩
      (Topology.player "ping" .initiator 0 2) (Topology.player "pong" .responder 1 2) 2
      { secs := 1, nanos := 0 } :=
    { components := List.Perm.refl _
      distinct := show "ping" ≠ "pong" by decide
      initiator := rfl
      responder := rfl
      told := ⟨_, Topology.paramTexts_player _ _ _ _, Parameters.find_of_toString rfl (by decide)⟩
      texts := ⟨_, Topology.paramTexts_player _ _ _ _⟩
      joined := ⟨_, .b, rfl, rfl, rfl, ofSeconds_one⟩
      slow := fun _ => by decide }
  obtain ⟨simulation, built, ⟨fuel, ends⟩, concludes⟩ :=
    (@run_of_loops {} Instant.zero Instant.zero ⟨Filter.off, #[]⟩ 2 rfl (by decide) Filter.off).1
      _ _ _ _ loops (by decide)
  obtain ⟨result, runs⟩ := Option.ne_none_iff_exists'.mp ends
  obtain ⟨report, ok, rallies⟩ := concludes fuel result runs
  obtain ⟨self, there, -, -, -, -, last⟩ := rallies.initiator
  exact ⟨simulation, fuel, result, report, self, built, runs, ok, rallies.reason,
    rallies.endTime.trans (by decide), there, last⟩

end Simulation

end Rally
