import Mathlib.Algebra.BigOperators.Intervals
import Rally.Proofs.Player.Buildable
/-!
# Cycles of players

On a cycle each player hears the one before it. So how long a message takes, which players its text spells,
and how many initiators are met on the way back can be told by the positions on the cycle alone.
-/

namespace Rally

namespace Cycle

/-- Whether the components of a cycle are players of some roles on some ranks, and its links take some
time. -/
structure Plays (cycle : Cycle) (role : Nat → Role) (rank : Nat → RankId) (rounds : Nat) :
    Prop where
  /-- The components are players, of which initiators are to play so many rounds. -/
  player : ∀ position < cycle.count, cycle.component position =
    Topology.player (cycle.component position).name (role position) (rank position) rounds
  /-- No link is passed at once. -/
  slow : ∀ position < cycle.count, ∃ latency,
    Duration.ofSeconds (cycle.latency position) = .ok latency ∧ latency ≠ Duration.zero

/-- How many initiators there are among as many players before a position. -/
def met (count : Nat) (role : Nat → Role) (hops position : Nat) : Nat :=
  (List.range hops).countP fun hop => role (back count (hop + 1) position) = .initiator

/-- The positions that a message comes by over so many links. -/
def trail (count hops position : Nat) : List Nat :=
  (List.range hops).map fun hop => back count (hops - hop) position

/-- How long a message takes over the link behind a position. -/
def delay (cycle : Cycle) (position : Nat) : Duration :=
  (Duration.ofSeconds (cycle.latency position)).toOption.getD Duration.zero

/-- How many nanoseconds it takes over so many links. -/
def span (cycle : Cycle) (hops position : Nat) : Nat :=
  ∑ hop ∈ Finset.range hops, (cycle.delay (back cycle.count (hop + 1) position)).toNanos

/-- Whether so many players before a position, and no fewer, have as many initiators among them as messages
are waited for. -/
structure Walk (count : Nat) (role : Nat → Role) (rounds position hops : Nat) : Prop where
  /-- So many players are enough. -/
  enough : patience rounds ≤ met count role hops position
  /-- Fewer are not. -/
  least : ∀ fewer < hops, met count role fewer position < patience rounds

variable {cycle : Cycle} {role : Nat → Role} {rank : Nat → RankId}
  {rounds : Nat} {topology : Topology}

/-- As many players are passed as messages are waited for. -/
theorem Walk.le {count position hops : Nat} (walk : Walk count role rounds position hops) :
    patience rounds ≤ hops :=
  walk.enough.trans (List.countP_le_length.trans List.length_range.le)

/-- Within once around there is any other position before one. -/
theorem exists_back {count other : Nat} (there : other < count) (position : Nat) :
    ∃ hops < count, back count (hops + 1) position = other := by
  have positive := Nat.zero_lt_of_lt there
  refine ⟨back count (other + 1) position, back_lt positive _ _, ?_⟩
  have least := Int.emod_nonneg ((position : Int) - (other + 1 : Nat))
    (Int.natCast_ne_zero.mpr positive.ne')
  have turned : (position : Int) - (back count (other + 1) position + 1 : Nat) =
      position - 1 - (position - (other + 1 : Nat)) % count := by
    rw [back, Int.natCast_add, Int.toNat_of_nonneg least]
    omega
  rw [back, turned, Int.sub_emod_emod,
    show (position : Int) - 1 - (position - (other + 1 : Nat)) = other by omega,
    ← Int.natCast_emod, Int.toNat_natCast, Nat.mod_eq_of_lt there]

/-- Once more around is the same position. -/
theorem back_around (count times hops position : Nat) :
    back count (times * count + hops) position = back count hops position := by
  have turned : (position : Int) - (times * count + hops : Nat) = position - hops - times * count := by
    rw [Int.natCast_add, Int.natCast_mul]
    omega
  rw [back, turned, Int.sub_mul_emod_self_right, back]

/-- Each time around meets an initiator, where there is one. -/
theorem le_met {count : Nat} (some : ∃ other < count, role other = .initiator)
    (times position : Nat) : times ≤ met count role (times * count) position := by
  induction times with
  | zero => exact Nat.zero_le _
  | succ times ih =>
    obtain ⟨other, there, initiator⟩ := some
    obtain ⟨hops, within, back⟩ := exists_back there position
    rw [met, Nat.succ_mul, List.range_add, List.countP_append]
    refine Nat.add_le_add ih (List.countP_pos_iff.mpr
      ⟨times * count + hops, List.mem_map_of_mem (List.mem_range.mpr within), ?_⟩)
    rw [decide_eq_true_iff, Nat.add_assoc, back_around, back, initiator]

namespace Plays

variable (plays : cycle.Plays role rank rounds) (describes : cycle.Describes topology)

include plays describes

/-- Initiators are told to play so many rounds. -/
theorem tells (fits : rounds < 1 <<< 64) : topology.Tells rounds := by
  refine Topology.tells_of_players (fun spec inside => ?_) fits
  obtain ⟨position, within, rfl⟩ := describes.exists_position inside
  exact ⟨_, _, _, plays.player position within⟩

/-- Players on a cycle can be joined. -/
theorem playable (fits : rounds < 1 <<< 64) : topology.Playable := by
  have rings := describes.rings
  refine ⟨describes.sound (fun position within => ?_) plays.slow,
    fun spec inside type params texts => ⟨rounds, plays.tells describes fits spec inside type params texts⟩,
    fun spec inside => Or.inr ⟨?_, rings.inputs spec inside, rings.outputs spec inside⟩⟩
  · obtain ⟨type, known, ports⟩ := Player.exists_type (role position)
    rw [plays.player position within]
    exact ⟨type, known, ⟨_, Topology.paramTexts_player _ _ _ _⟩, ports ▸ rfl, ports ▸ rfl⟩
  · rintro ⟨link, among, side, same⟩
    obtain ⟨position, -, rfl⟩ := describes.mem_links.mp among
    have port := congrArg Endpoint.port same
    cases side with
    | a => exact absurd port (show "output" ≠ "inout" by decide)
    | b => exact absurd port (show "input" ≠ "inout" by decide)

end Plays

end Cycle

/-- Different roles have different types. -/
theorem Role.type_injective {role other : Role} (same : role.type = other.type) : role = other := by
  cases role <;> cases other
  case initiator.initiator | responder.responder => rfl
  case initiator.responder | responder.initiator => exact absurd same (by decide)

namespace Player

variable {part : Part Player} {player : Player} {ports : Ports} {votes : List Vote}

/-- The type of a player is that of its role. -/
theorem Made.type (made : Made part player ports votes) : part.type.fullName = player.role.type := by
  cases made with
  | ping type | pong type => exact type

/-- A player that spells the way of messages has a word that tells its role and rank. -/
theorem Made.word_of_relay (made : Made part player ports votes) {input output : PortId}
    (relay : player.play = .relay input output) : player.word = Play.tag player.role part.rank := by
  cases made with
  | ping | pong =>
    obtain rfl := relay
    rfl

end Player

namespace Simulation

variable {options : Options} {topology : Topology} {clock : Instant} {journal : Journal}
  {simulation : Simulation Player} {assembly : Assembly Player} {rounds reach hops position : Nat}
  {cycle : Cycle} {role : Nat → Role} {rank : Nat → RankId}
  (built : (build Player.registry options topology clock journal).2 = .ok simulation)
  (realizes : simulation.Realizes Player.registry topology assembly)
  (describes : cycle.Describes topology)
  (circular : Circular assembly.links simulation.places topology.components.length rounds)

include built realizes describes

/-- On a cycle a player hears the one before it. -/
theorem prev_after (inside : position < cycle.count) :
    circular.circuit.prev (cycle.after position) = position := by
  have ahead := describes.getElem? (Cycle.after_lt inside)
  obtain ⟨other, behind, name⟩ := (circular.feeds_iff realizes.follows describes.rings
    (fun _ _ there => relay_of_rings built describes.rings there) ahead).mp (describes.feeds inside)
  have within : circular.circuit.prev (cycle.after position) < cycle.count :=
    describes.length ▸ (List.getElem?_eq_some_iff.mp behind).1
  rw [describes.getElem? within, Option.some.injEq] at behind
  exact cycle.distinct _ within _ inside ((congrArg ComponentSpec.name behind).trans name)

/-- So it does with players further back. -/
theorem iterate_prev (inside : position < cycle.count) (hops : Nat) :
    circular.circuit.prev^[hops] position = Cycle.back cycle.count hops position := by
  have positive := Nat.zero_lt_of_lt inside
  induction hops with
  | zero => exact (Cycle.back_zero inside).symm
  | succ hops ih =>
    rw [Function.iterate_succ_apply', ih, ← Cycle.after_back positive]
    exact prev_after built realizes describes circular (Cycle.back_lt positive _ _)

/-- What a player hears was delayed by the link of the one before it. -/
theorem latency_ear (inside : position < cycle.count) :
    (circular.circuit.ear (cycle.after position)).latency assembly.links = cycle.delay position := by
  have ahead := Cycle.after_lt inside
  obtain ⟨definition, there, relays, goal⟩ := circular.relays_ear realizes.follows describes.rings
    (fun _ _ there => relay_of_rings built describes.rings there) (describes.getElem? ahead)
  obtain ⟨before, within, rfl⟩ := describes.mem_links.mp (List.mem_of_getElem? there)
  have leaves : (circular.circuit.ear (cycle.after position)).side = .a := by
    generalize (circular.circuit.ear (cycle.after position)).side = side at relays
    cases side with
    | a => rfl
    | b => exact absurd relays.output Cycle.output_ne_input.symm
  rw [leaves] at goal
  obtain rfl : before = position := Cycle.after_injective within inside
    (cycle.distinct _ (Cycle.after_lt within) _ ahead goal)
  have takes := realizes.follows.latency_eq there
  rw [Cycle.joint] at takes
  rw [Cycle.delay, takes]
  rfl

/-- A message from some hops behind a player takes its time over the links in between. -/
theorem lag_eq (inside : position < cycle.count) (hops : Nat) : circular.circuit.lag hops position =
    cycle.span (hops + 1) position := by
  have positive := Nat.zero_lt_of_lt inside
  rw [Circuit.lag_eq_sum, Cycle.span]
  refine Finset.sum_congr rfl fun hop _ => ?_
  rw [iterate_prev built realizes describes circular inside, ← Cycle.after_back positive]
  exact congrArg Duration.toNanos
    (latency_ear built realizes describes circular (Cycle.back_lt positive _ _))

/-- It goes by the players in between. -/
theorem route_eq (inside : position < cycle.count) (hops : Nat) :
    circular.circuit.route hops position = Cycle.trail cycle.count (hops + 1) position := by
  rw [Circuit.route_eq_map, Cycle.trail]
  exact List.map_congr_left fun hop _ =>
    iterate_prev built realizes describes circular inside _

variable (plays : cycle.Plays role rank rounds)

include plays

omit realizes in
/-- The word of a player tells its role and rank. -/
theorem word_eq (inside : position < cycle.count) :
    (circular.circuit.player position).word = Play.tag (role position) (rank position) := by
  obtain ⟨_, -, made⟩ := made_of_places built
  obtain ⟨seat, there⟩ := circular.exists_seat (describes.length ▸ inside)
  obtain ⟨spec, part, votes, known, -, depicts, -, -, player⟩ := made position seat there
  rw [describes.getElem? inside, Option.some.injEq, plays.player position inside] at known
  have type : (role position).type = seat.slot.component.role.type :=
    (congrArg ComponentSpec.type known).trans
      ((Player.fullName_of_registry depicts.type).symm.trans player.type)
  rw [circular.player_eq there, player.word_of_relay (relay_of_rings built describes.rings there),
    depicts.rank, ← known, ← Role.type_injective type]
  rfl

omit realizes in
/-- It begins where its role is that of an initiator. -/
theorem initiates_eq (inside : position < cycle.count) :
    (circular.circuit.player position).initiates = decide (role position = .initiator) := by
  have begins := initiates_iff built circular (describes.getElem? inside)
  rw [plays.player position inside, Topology.player, Role.type_eq_initiator] at begins
  rw [Bool.eq_iff_iff, decide_eq_true_iff, begins]

/-- So many hops behind a player there are as many initiators as roles say. -/
theorem length_origins (inside : position < cycle.count) (hops : Nat) :
    (circular.circuit.origins hops position).length = Cycle.met cycle.count role hops position := by
  rw [Circuit.origins, ← List.countP_eq_length_filter, Cycle.met]
  refine List.countP_congr fun hop _ => ?_
  have positive := Nat.zero_lt_of_lt inside
  rw [Circuit.begins, iterate_prev built realizes describes circular inside,
    initiates_eq built describes circular plays (Cycle.back_lt positive _ _)]

/-- Behind all players there is an initiator where there is one on the cycle. -/
theorem lively_of_initiator (some : ∃ other < cycle.count, role other = .initiator)
    (inside : position < cycle.count) : circular.circuit.Lively position := by
  obtain ⟨other, there, initiator⟩ := some
  obtain ⟨hops, -, back⟩ := Cycle.exists_back there position
  refine ⟨hops, ?_⟩
  rw [Circuit.begins, iterate_prev built realizes describes circular inside, back,
    initiates_eq built describes circular plays there, initiator]
  rfl

section Walks

variable {far : Nat → Nat} (walks : ∀ position < cycle.count, role position = .initiator →
    Cycle.Walk cycle.count role rounds position (far position))

include walks

/-- Initiators meet as many initiators as messages are waited for. -/
theorem meets_of_walks : ∀ id < circular.circuit.count,
    (circular.circuit.player id).initiates = true → circular.circuit.Meets id (far id) := by
  intro id within begins
  have inside : id < cycle.count := describes.length ▸ within
  have origins := length_origins built realizes describes circular plays inside
  rw [initiates_eq built describes circular plays inside, decide_eq_true_iff] at begins
  have walk := walks id inside begins
  exact ⟨(origins (far id)).ge.trans' walk.enough,
    fun fewer less => (origins fewer).trans_lt (walk.least fewer less)⟩

omit plays in
/-- The last message that an initiator waits for takes its time over the links in between, as far as there
are instants. -/
theorem voyage_of_walk (inside : position < cycle.count) (initiator : role position = .initiator) :
    (circular.circuit.voyage (far position - 1) position).1.toNanos =
      min (cycle.span (far position) position) Instant.max.toNanos := by
  rw [Circuit.toNanos_voyage, lag_eq built realizes describes circular inside,
    Nat.sub_add_cancel ((patience_pos rounds).trans_le (walks position inside initiator).le)]

/-- Its text spells the players in between. -/
theorem text_of_walk (reaches : circular.circuit.Reaches reach) (inside : position < cycle.count)
    (initiator : role position = .initiator) :
    ((circular.circuit.arrivals reach position).map Prod.snd).getLast? =
      some (spell (fun other => Play.tag (role other) (rank other))
        (Cycle.trail cycle.count (far position) position)) := by
  have positive := Nat.zero_lt_of_lt inside
  have count : circular.circuit.count = cycle.count := describes.length
  have within : position < circular.circuit.count := count ▸ inside
  have begins : (circular.circuit.player position).initiates = true := by
    rw [initiates_eq built describes circular plays inside, initiator]
    rfl
  have meets := meets_of_walks built realizes describes circular plays walks position within begins
  have relay : ∀ id < circular.circuit.count, (circular.circuit.player id).play.isRelay = true := by
    intro id there
    obtain ⟨seat, here⟩ := circular.exists_seat there
    rw [circular.player_eq here, relay_of_rings built describes.rings here]
    rfl
  rw [meets.getLast?_texts reaches within relay, route_eq built realizes describes circular inside,
    Nat.sub_add_cancel ((patience_pos rounds).trans_le (walks position inside initiator).le), spell, spell]
  refine congrArg (fun words => some ("-".intercalate words)) (List.map_congr_left fun other passed => ?_)
  obtain ⟨hop, -, rfl⟩ := List.mem_map.mp passed
  exact word_eq built describes circular plays (Cycle.back_lt positive _ _)

end Walks

end Simulation

/-- What the report of a run on a cycle tells, where the messages of as many initiators as are waited for
come from within so many players before each of them. -/
structure Report.Circles (cycle : Cycle) (role : Nat → Role) (rank : Nat → RankId)
    (rounds : Nat) (far : Nat → Nat) (report : Report Player) : Prop where
  /-- All voters are ready. -/
  reason : report.reason = .allVotersReady
  /-- Every player receives as many messages as initiators wait for. -/
  events : report.events = cycle.count * patience rounds
  /-- As many are sent. -/
  sent : report.messagesSent = cycle.count * patience rounds
  /-- All of them are delivered. -/
  delivered : report.messagesDelivered = cycle.count * patience rounds
  /-- Nothing is left. -/
  settled : ∀ rank ∈ report.ranks, rank.pending = 0
  /-- The last message that an initiator received spells the players before it. -/
  payload : ∀ position < cycle.count, role position = .initiator → ∃ ping : Ping,
    report.component? (cycle.component position).name = some (.ping ping) ∧
      ping.last = some (spell (fun other => Play.tag (role other) (rank other))
        (Cycle.trail cycle.count (far position) position))
  /-- The run ends when the last one of these messages arrives. -/
  latest : IsGreatest {nanos | ∃ position < cycle.count, role position = .initiator ∧
    cycle.span (far position) position = nanos} report.endTime.toNanos

namespace Simulation

section Circles

variable {options : Options} {topology : Topology} {clock : Instant} {journal : Journal}
  {simulation : Simulation Player} {assembly : Assembly Player} {rounds reach : Nat}
  {cycle : Cycle} {role : Nat → Role} {rank : Nat → RankId}
  {far : Nat → Nat} {report : Report Player}
  (built : (build Player.registry options topology clock journal).2 = .ok simulation)
  (realizes : simulation.Realizes Player.registry topology assembly)
  (describes : cycle.Describes topology)
  {circular : Circular assembly.links simulation.places topology.components.length rounds}
  (plays : cycle.Plays role rank rounds)
  (some : ∃ position < cycle.count, role position = .initiator)
  (reaches : circular.circuit.Reaches reach)
  (concluded : circular.circuit.Concludes reach simulation.places report)

include built realizes describes plays some reaches concluded

/-- Every link of a cycle with an initiator carries as many messages as initiators wait for. -/
theorem traffic_of_cycle {traffic : Traffic} (inside : traffic ∈ report.links) :
    traffic.sent = patience rounds ∧ traffic.delivered = patience rounds := by
  obtain ⟨link, there⟩ := List.mem_iff_getElem?.mp inside
  have size : link < assembly.links.size :=
    concluded.whole ▸ (List.getElem?_eq_some_iff.mp there).1
  obtain ⟨spec, known⟩ := realizes.follows.exists_link size
  obtain ⟨position, within, rfl⟩ := describes.mem_links.mp (List.mem_of_getElem? known)
  have relays : (cycle.joint position).Relays .a := ⟨rfl, rfl⟩
  obtain ⟨receiver, ahead, -, other, found, back, forth⟩ :=
    exists_traffic built describes.rings realizes concluded known relays
  obtain rfl : other = traffic := Option.some.inj (found.symm.trans there)
  have lively := lively_of_initiator built realizes describes circular plays some
    (describes.length ▸ ahead)
  rw [Circuit.length_arrivals reaches ahead lively] at forth
  change other.aToB = _ at forth
  change other.bToA = _ at back
  rw [Traffic.sent, Traffic.delivered, forth, back]
  exact ⟨rfl, rfl⟩

variable (walks : ∀ position < cycle.count, role position = .initiator →
    Cycle.Walk cycle.count role rounds position (far position))
  (short : ∀ position < cycle.count, role position = .initiator →
    cycle.span (far position) position < Instant.max.toNanos)

include walks short

omit some reaches concluded in
/-- No message on a cycle is due at the last instant where those that initiators wait for are not. -/
theorem prompt_of_walks {filter : Filter} (reaches : circular.circuit.Reaches reach) :
    simulation.Prompt filter := by
  refine prompt_of_meets built realizes reaches
    (meets_of_walks built realizes describes circular plays walks) fun id within begins => ?_
  have inside : id < cycle.count := describes.length ▸ within
  rw [initiates_eq built describes circular plays inside, decide_eq_true_iff] at begins
  rw [Duration.lt_iff_toNanos_lt,
    voyage_of_walk built realizes describes circular walks inside begins]
  exact (Nat.min_le_left _ _).trans_lt (short id inside begins)

/-- A run on a cycle ends when the last message that an initiator waits for arrives. -/
theorem latest_of_walks : IsGreatest {nanos | ∃ position < cycle.count, role position = .initiator ∧
    cycle.span (far position) position = nanos} report.endTime.toNanos := by
  have same (position : Nat) (inside : position < cycle.count)
      (initiator : role position = .initiator) :
      (circular.circuit.voyage (far position - 1) position).1.toNanos =
        cycle.span (far position) position := by
    rw [voyage_of_walk built realizes describes circular walks inside initiator]
    exact Nat.min_eq_left (short position inside initiator).le
  have begins (position : Nat) (inside : position < cycle.count) :
      (circular.circuit.player position).initiates = true ↔ role position = .initiator := by
    rw [initiates_eq built describes circular plays inside, decide_eq_true_iff]
  have count : circular.circuit.count = cycle.count := describes.length
  obtain ⟨⟨last, within, initiates, attained⟩, most⟩ := Circuit.Concludes.isGreatest reaches
    (meets_of_walks built realizes describes circular plays walks) concluded
      (some.imp fun position there => ⟨count ▸ there.1, (begins position there.1).mpr there.2⟩)
  rw [count] at within
  constructor
  · have initiator := (begins last within).mp initiates
    exact ⟨last, within, initiator, by rw [← same last within initiator, attained]⟩
  · rintro _ ⟨position, inside, initiator, rfl⟩
    rw [← same position inside initiator, ← Duration.le_iff_toNanos_le]
    exact most ⟨position, count ▸ inside, (begins position inside).mpr initiator, rfl⟩

/-- A report that concludes the circuit of players on a cycle tells how messages went around. -/
theorem circles_of_concludes (reason : report.reason = .allVotersReady) :
    report.Circles cycle role rank rounds far := by
  have count : circular.circuit.count = cycle.count := describes.length
  have carried {traffic : Traffic} (inside : traffic ∈ report.links) :=
    traffic_of_cycle built realizes describes plays some reaches concluded inside
  have links : report.links.length = cycle.count := by
    have whole : report.links.length = topology.links.length :=
      concluded.whole.trans realizes.follows.joined.length_eq.symm
    rw [whole, describes.links.length_eq, List.length_map, List.length_range]
  refine ⟨reason, ?_, ?_, ?_, concluded.settled, fun position inside initiator => ?_,
    latest_of_walks built realizes describes plays some reaches concluded walks short⟩
  · rw [concluded.events, count, Finset.sum_const_nat fun id among => ?_, Finset.card_range]
    have within : id < cycle.count := Finset.mem_range.mp among
    exact Circuit.length_arrivals reaches (count ▸ within)
      (lively_of_initiator built realizes describes circular plays some within)
  · rw [Report.messagesSent_eq_sum, List.sum_eq_card_nsmul _ _
      (List.forall_mem_map.mpr fun traffic inside => (carried inside).1), List.length_map, smul_eq_mul, links]
  · rw [Report.messagesDelivered_eq_sum, List.sum_eq_card_nsmul _ _
      (List.forall_mem_map.mpr fun traffic inside => (carried inside).2), List.length_map, smul_eq_mul, links]
  · have place := component?_of_concludes built realizes concluded (describes.getElem? inside)
    have begins : (circular.circuit.player position).initiates = true := by
      rw [initiates_eq built describes circular plays inside, initiator]
      rfl
    obtain ⟨ping, player⟩ := Player.eq_ping_of_initiates begins
    rw [player] at place
    exact ⟨_, place, text_of_walk built realizes describes circular plays walks reaches inside initiator⟩

omit realizes reaches concluded in
/-- A run on a cycle with an initiator comes to an end since all voters are ready, when messages went
around. -/
theorem run_of_cycle (fits : rounds < 1 <<< 64) (unlimited : options.limit = .unlimited)
    {filter : Filter} {moment : Instant} :
    (∃ fuel, simulation.run fuel filter moment ≠ none) ∧
      ∀ fuel result, simulation.run fuel filter moment = Option.some result → ∃ report,
        result.outcome = .ok report ∧ report.Circles cycle role rank rounds far := by
  obtain ⟨assembly, realizes⟩ := realizes_of_build built
  have circular := circular_of_rings built describes.rings realizes (plays.tells describes fits)
  have reaches := circular.circuit.reaches_around
  have initiator : ∃ spec ∈ topology.components, spec.type = Role.initiator.type := by
    obtain ⟨position, inside, initiator⟩ := some
    refine ⟨_, List.mem_of_getElem? (describes.getElem? inside), ?_⟩
    rw [plays.player position inside, initiator]
    rfl
  have prompt : simulation.Prompt filter :=
    prompt_of_walks built realizes describes plays walks short reaches
  obtain ⟨ends, concludes⟩ : (∃ fuel, simulation.run fuel filter moment ≠ none) ∧ _ :=
    run_of_circular built realizes reaches unlimited initiator fun _ => prompt
  refine ⟨ends, fun fuel result runs => ?_⟩
  obtain ⟨report, ok, reason, concluded⟩ := concludes fuel result runs
  exact ⟨report, ok, circles_of_concludes built realizes describes plays some reaches concluded walks
    short reason⟩

end Circles

end Simulation

end Rally
