import Rally.Proofs.Player.ArrivalTimes
import Rally.Proofs.Pool.BeforeFinish
import Rally.Proofs.Topology.Relays
/-!
# Rings of players

However many of the players on rings begin at once, whatever the latencies and ranks are, each initiator
hears exactly as many messages as it waits for and sends as many, so does every player on a ring with an
initiator, and nothing is left when the last initiator is ready.
-/

namespace Rally

/-- Whether all initiators of a topology are told to play so many rounds. -/
def Topology.Tells (topology : Topology) (rounds : Nat) : Prop :=
  ∀ spec ∈ topology.components, spec.type = Role.initiator.type →
    ∀ params, Assembly.paramTexts spec = .ok params → Player.rounds? params = .ok rounds

/-- Initiators that are added as players are told to play the rounds that are given. -/
theorem Topology.tells_of_players {topology : Topology} {rounds : Nat}
    (players : ∀ spec ∈ topology.components, ∃ name role rank, spec = player name role rank rounds)
    (fits : rounds < 1 <<< 64) : topology.Tells rounds := by
  intro spec inside type params texts
  obtain ⟨name, role, rank, rfl⟩ := players spec inside
  obtain rfl := Role.type_eq_initiator.mp type
  rw [paramTexts_player] at texts
  obtain rfl := Except.ok.inj texts
  exact Parameters.find_of_toString rfl fits

/-- What the report of a run on rings tells, where initiators play so many rounds. -/
structure Report.Completes (topology : Topology) (rounds : Nat) (report : Report Player) : Prop where
  /-- All voters are ready. -/
  reason : report.reason = .allVotersReady
  /-- Each initiator heard as many messages as it waits for, sent as many, and is ready. -/
  initiators : ∀ (id : ComponentId) spec, topology.components[id]? = some spec → spec.type = Role.initiator.type →
    ∃ ping : Ping, report.components[id]? = some (spec.name, .ping ping) ∧
      ping.roundCount = max rounds 1 ∧ ping.received = max rounds 1 ∧ ping.sent = max rounds 1 ∧
      ping.voter = .ready
  /-- From outputs to inputs, as many messages were sent and delivered on each link of a ring with an
  initiator, and none elsewhere. -/
  relayed : ∀ (id : LinkId) spec side, topology.links[id]? = some spec → spec.Relays side →
    ∃ traffic, report.links[id]? = some traffic ∧ traffic.leaving side.opposite = ⟨0, 0⟩ ∧
      (topology.Initiated (spec.endAt side).component →
        traffic.leaving side = ⟨max rounds 1, max rounds 1⟩) ∧
      (¬ topology.Initiated (spec.endAt side).component → traffic.leaving side = ⟨0, 0⟩)
  /-- Nothing is left on any rank. -/
  settled : ∀ rank ∈ report.ranks, rank.pending = 0

section Relays

variable {topology : Topology} {assembly : Assembly Player}

/-- All players have the same ports. -/
theorem Player.ports_of_registry {name : String} {type : ComponentType Player}
    (known : Player.registry.get? name = some type) : type.ports = Play.ports := by
  rcases Player.type_of_registry known with ⟨-, rfl⟩ | ⟨-, rfl⟩ <;> rfl

/-- An end of a link is at the port of the player that the definition names. -/
theorem Assembly.Follows.end_of_player (follows : assembly.Follows Player.registry topology)
    {link : LinkId} {spec : LinkSpec} (there : topology.links[link]? = some spec) (side : Side) :
    link < assembly.links.size ∧ ∃ component : ComponentSpec,
      topology.components[((assembly.links.getD link default).endAt side).component]? =
        some component ∧ component.name = (spec.endAt side).component ∧
      portId? Play.ports (spec.endAt side).port =
        some ((assembly.links.getD link default).endAt side).port := by
  obtain ⟨joined, found, routes⟩ := follows.routes there side
  obtain ⟨known, same⟩ := Array.getElem?_eq_some_iff.mp found
  obtain ⟨component, type, here, name, registered, declared⟩ := routes.source.found
  rw [getD_links found]
  rw [Player.ports_of_registry registered] at declared
  exact ⟨known, component, here, name, declared⟩

variable (follows : assembly.Follows Player.registry topology)

include follows

/-- A link that relays messages is attached to an output and to an input. -/
theorem LinkSpec.Relays.ports {link : LinkId} {spec : LinkSpec}
    (there : topology.links[link]? = some spec) {side : Side} (relays : spec.Relays side) :
    ((assembly.links.getD link default).endAt side).port = 2 ∧
      ((assembly.links.getD link default).endAt side.opposite).port = 1 := by
  obtain ⟨-, _, -, -, leaving⟩ := follows.end_of_player there side
  obtain ⟨-, _, -, -, entering⟩ := follows.end_of_player there side.opposite
  rw [relays.output] at leaving
  rw [relays.input] at entering
  exact ⟨(Option.some.inj leaving).symm, (Option.some.inj entering).symm⟩

/-- The messages of a way reach an input where they leave an output. -/
theorem Topology.Rings.port_iff (rings : topology.Rings) {way : Way}
    (known : way.link < assembly.links.size) :
    (way.near assembly.links).port = 2 ↔ (way.far assembly.links).port = 1 := by
  obtain ⟨spec, there⟩ := follows.exists_link known
  obtain ⟨side, relays⟩ := rings.relays spec (List.mem_of_getElem? there)
  obtain ⟨leaving, entering⟩ := relays.ports follows there
  by_cases same : way.side = side
  · rw [Way.near, Way.far, same, leaving, entering]
    exact ⟨fun _ => rfl, fun _ => rfl⟩
  · rw [Way.near, Way.far, Side.eq_opposite same, Side.opposite_opposite, leaving, entering]
    exact ⟨fun wrong => absurd wrong (by decide), fun wrong => absurd wrong (by decide)⟩

/-- On rings players have one port for each direction. -/
theorem Player.Made.relay (rings : topology.Rings) {id : ComponentId} {spec : ComponentSpec}
    {part : Part Player} {player : Player} {ports : Ports} {votes : List Vote}
    (known : topology.components[id]? = some spec) (present : assembly.parts[id]? = some part)
    (made : Made part player ports votes) : player.play = .relay 1 2 := by
  obtain ⟨link, inside, side, same⟩ := rings.inputs spec (List.mem_of_getElem? known)
  obtain ⟨position, there⟩ := List.mem_iff_getElem?.mp inside
  obtain ⟨size, component, found, name, port⟩ := follows.end_of_player there side
  rw [same] at name port
  have attached : part.wiring.lookup 1 = some (position, side) :=
    (follows.lookup_iff present).mpr
      ⟨size, follows.position_eq known found name, (Option.some.inj port).symm⟩
  have configured := made.configured
  generalize player.play = play at configured
  cases configured with
  | loop _ input =>
    rw [attached] at input
    cases input
  | relay => rfl

end Relays

namespace Circular

variable {topology : Topology} {assembly : Assembly Player} {seats : Seats Player} {rounds : Nat}
  (circular : Circular assembly.links seats topology.components.length rounds)
  (follows : assembly.Follows Player.registry topology) (rings : topology.Rings)
  (plays : ∀ id seat, seats id = some seat → seat.slot.component.play = .relay 1 2)
  {id : ComponentId} {spec : ComponentSpec}

include circular follows plays

/-- On rings the way that a link relays messages is the one over which its receiver hears. -/
theorem ear_of_relays {link : LinkId} {definition : LinkSpec} {side : Side} {seat : Seat Player}
    (there : topology.links[link]? = some definition) (relays : definition.Relays side)
    (here : seats ((assembly.links.getD link default).endAt side.opposite).component = some seat) :
    seat.ear = ⟨link, side⟩ := by
  refine (circular.eq_ear here (follows.end_of_player there side).1 rfl ?_).symm
  rw [plays _ seat here]
  exact (relays.ports follows there).2

include rings

/-- The link over which a player hears relays messages from the one behind it. -/
theorem relays_ear (known : topology.components[id]? = some spec) :
    ∃ definition, topology.links[(circular.circuit.ear id).link]? = some definition ∧
      definition.Relays (circular.circuit.ear id).side ∧
      (definition.endAt (circular.circuit.ear id).side.opposite).component = spec.name := by
  obtain ⟨seat, here⟩ := circular.exists_seat (List.getElem?_eq_some_iff.mp known).1
  have ear := circular.ear_eq here
  obtain ⟨size, place, hears⟩ := circular.far_ear here
  obtain ⟨definition, there⟩ := follows.exists_link size
  obtain ⟨side, relays⟩ := rings.relays definition (List.mem_of_getElem? there)
  rw [plays id seat here] at hears
  -- The side is the one that messages leave, since they reach an input at the other one.
  have leaves : seat.ear.side = side := by
    obtain ⟨leaving, entering⟩ := relays.ports follows there
    by_contra differ
    rw [Way.far, ← Side.eq_opposite (Ne.symm differ), leaving] at hears
    cases hears
  obtain ⟨-, component, found, name, -⟩ := follows.end_of_player there seat.ear.side.opposite
  change topology.components[(seat.ear.far assembly.links).component]? = some component at found
  rw [place, known, Option.some.injEq] at found
  rw [ear]
  exact ⟨definition, there, leaves ▸ relays, found ▸ name.symm⟩

/-- What feeds a player is the one that it hears. -/
theorem feeds_iff (known : topology.components[id]? = some spec) {sender : String} :
    topology.Feeds sender spec.name ↔ ∃ other : ComponentSpec,
      topology.components[circular.circuit.prev id]? = some other ∧ other.name = sender := by
  obtain ⟨definition, there, relays, goal⟩ := circular.relays_ear follows rings plays known
  obtain ⟨-, other, behind, name, -⟩ :=
    follows.end_of_player there (circular.circuit.ear id).side
  change topology.components[circular.circuit.prev id]? = some other at behind
  constructor
  · rintro ⟨link, inside, side, source, target⟩
    obtain ⟨position, here⟩ := List.mem_iff_getElem?.mp inside
    obtain ⟨-, component, found, same, -⟩ := follows.end_of_player here side.opposite
    rw [target] at same
    have place := follows.position_eq known found same
    obtain ⟨seat, owned⟩ := circular.exists_seat (List.getElem?_eq_some_iff.mp known).1
    have way := circular.ear_of_relays follows plays here
      ⟨congrArg Endpoint.port source, congrArg Endpoint.port target⟩ (place ▸ owned)
    have ear : circular.circuit.ear id = ⟨position, side⟩ := (circular.ear_eq owned).trans way
    refine ⟨other, behind, ?_⟩
    rw [ear] at there name
    rw [here, Option.some.injEq] at there
    rw [name, ← there, source]
  · rintro ⟨twin, also, rfl⟩
    rw [behind, Option.some.injEq] at also
    subst also
    refine ⟨definition, List.mem_of_getElem? there, (circular.circuit.ear id).side, ?_, ?_⟩
    · rw [name, ← relays.output]
    · rw [← goal, ← relays.input]

/-- Messages get from any player behind another one to this one. -/
theorem reaches_of_iterate {hops : Nat} {other : ComponentSpec}
    (known : topology.components[id]? = some spec)
    (behind : topology.components[circular.circuit.prev^[hops] id]? = some other) :
    Relation.ReflTransGen topology.Feeds other.name spec.name := by
  induction hops generalizing other with
  | zero =>
    rw [Function.iterate_zero_apply, known, Option.some.injEq] at behind
    rw [behind]
  | succ hops ih =>
    have within : circular.circuit.prev^[hops] id < topology.components.length :=
      Circuit.iterate_lt (List.getElem?_eq_some_iff.mp known).1 hops
    rw [Function.iterate_succ_apply'] at behind
    exact (ih (List.getElem?_eq_getElem within)).head
      ((circular.feeds_iff follows rings plays (List.getElem?_eq_getElem within)).mpr
        ⟨other, behind, rfl⟩)

/-- A player to which messages of another one get has this one behind it. -/
theorem exists_iterate {other : ComponentSpec} (inside : other ∈ topology.components)
    {name : String} (reaches : Relation.ReflTransGen topology.Feeds other.name name)
    (known : topology.components[id]? = some spec) (same : spec.name = name) :
    ∃ hops, topology.components[circular.circuit.prev^[hops] id]? = some other := by
  induction reaches generalizing id spec with
  | refl =>
    obtain ⟨position, there⟩ := List.mem_iff_getElem?.mp inside
    refine ⟨0, ?_⟩
    rw [Function.iterate_zero_apply, follows.position_eq there known same, there]
  | tail _ feeds ih =>
    rw [← same] at feeds
    obtain ⟨twin, behind, called⟩ := (circular.feeds_iff follows rings plays known).mp feeds
    obtain ⟨hops, there⟩ := ih behind called
    refine ⟨hops + 1, ?_⟩
    rw [Function.iterate_succ_apply]
    exact there

/-- There is an initiator behind a player where messages of one get to the player behind it. -/
theorem lively_iff (initiates : ∀ (id : ComponentId) spec, topology.components[id]? = some spec →
      ((circular.circuit.player id).initiates = true ↔ spec.type = Role.initiator.type))
    (behind : topology.components[circular.circuit.prev id]? = some spec) :
    circular.circuit.Lively id ↔ topology.Initiated spec.name := by
  constructor
  · rintro ⟨hops, found⟩
    rw [Circuit.begins, Function.iterate_succ_apply] at found
    have within : circular.circuit.prev^[hops] (circular.circuit.prev id) <
        topology.components.length :=
      Circuit.iterate_lt (List.getElem?_eq_some_iff.mp behind).1 hops
    have there := List.getElem?_eq_getElem within
    exact ⟨_, List.getElem_mem within, (initiates _ _ there).mp found,
      circular.reaches_of_iterate follows rings plays behind there⟩
  · rintro ⟨other, among, type, reaches⟩
    obtain ⟨hops, there⟩ := circular.exists_iterate follows rings plays among reaches behind rfl
    refine ⟨hops, ?_⟩
    rw [Circuit.begins, Function.iterate_succ_apply]
    exact (initiates _ _ there).mpr type

end Circular

namespace Simulation

variable {options : Options} {topology : Topology} {clock : Instant} {journal : Journal}
  {simulation : Simulation Player} {assembly : Assembly Player} {rounds reach : Nat}
  (built : (build Player.registry options topology clock journal).2 = .ok simulation)
  (rings : topology.Rings)

include built rings

/-- On rings players have one port for each direction. -/
theorem relay_of_rings {id : ComponentId} {seat : Seat Player}
    (there : simulation.places id = some seat) : seat.slot.component.play = .relay 1 2 := by
  obtain ⟨other, also, made⟩ := made_of_places built
  obtain ⟨spec, part, votes, known, present, -, -, -, player⟩ := made id seat there
  exact player.relay also.follows rings known present

variable (realizes : simulation.Realizes Player.registry topology assembly)

include realizes

/-- Players on rings are a circuit. -/
theorem circular_of_rings (tells : topology.Tells rounds) :
    Circular assembly.links simulation.places topology.components.length rounds :=
  circular_of_build built realizes tells fun way known seat other here there => by
    rw [relay_of_rings built rings here, relay_of_rings built rings there]
    exact rings.port_iff realizes.follows known

variable {circular : Circular assembly.links simulation.places topology.components.length rounds}
  (reaches : circular.circuit.Reaches reach) {report : Report Player}
  (concluded : circular.circuit.Concludes reach simulation.places report)

include concluded

/-- A link that relays messages carried what its receiver heard, and nothing the other way. -/
theorem exists_traffic {link : LinkId} {spec : LinkSpec} {side : Side}
    (known : topology.links[link]? = some spec) (relays : spec.Relays side) :
    ∃ receiver < topology.components.length, circular.circuit.ear receiver = ⟨link, side⟩ ∧
      ∃ traffic, report.links[link]? = some traffic ∧ traffic.leaving side.opposite = ⟨0, 0⟩ ∧
        traffic.leaving side = ⟨(circular.circuit.arrivals reach receiver).length,
          (circular.circuit.arrivals reach receiver).length⟩ := by
  have follows := realizes.follows
  have plays : ∀ id seat, simulation.places id = some seat →
      seat.slot.component.play = .relay 1 2 :=
    fun _ _ there => relay_of_rings built rings there
  obtain ⟨size, -⟩ := follows.end_of_player known side
  obtain ⟨-, _, ahead, -, -⟩ := follows.end_of_player known side.opposite
  have inside := (List.getElem?_eq_some_iff.mp ahead).1
  obtain ⟨seat, there⟩ := circular.exists_seat inside
  have ear := (circular.ear_eq there).trans (circular.ear_of_relays follows plays known relays there)
  obtain ⟨traffic, found, counts⟩ := concluded.heard _ inside
  obtain ⟨again, also, none⟩ := concluded.silent ⟨link, side.opposite⟩ size fun id within same => by
    obtain ⟨other, here⟩ := circular.exists_seat within
    have hears := (circular.far_ear here).2.2
    have turned : other.ear = ⟨link, side.opposite⟩ := (circular.ear_eq here).symm.trans same.symm
    rw [plays id other here, turned, Way.far, Side.opposite_opposite,
      (relays.ports follows known).1] at hears
    cases hears
  change circular.circuit.ear _ = _ at ear
  rw [ear] at found counts
  obtain rfl : again = traffic := Option.some.inj (also.symm.trans found)
  exact ⟨_, inside, ear, again, found, none, counts⟩

include reaches

/-- A report that concludes the circuit of players on rings tells that all of them came to an end. -/
theorem completes_of_concludes (reason : report.reason = .allVotersReady) :
    report.Completes topology rounds := by
  have follows := realizes.follows
  have plays : ∀ id seat, simulation.places id = some seat →
      seat.slot.component.play = .relay 1 2 :=
    fun _ _ there => relay_of_rings built rings there
  refine ⟨reason, fun id spec known type => ?_, fun link spec side known relays => ?_,
    concluded.settled⟩
  · have inside : id < topology.components.length := (List.getElem?_eq_some_iff.mp known).1
    obtain ⟨seat, there⟩ := circular.exists_seat inside
    have begins := (initiates_iff built circular known).mpr type
    have length := Circuit.length_arrivals reaches inside (Circuit.lively_of_initiates inside begins)
    have place := concluded.players id seat there
    rw [(described_of_build built there known).1] at place
    obtain ⟨ping, player⟩ := Player.eq_ping_of_initiates begins
    rw [player] at place
    exact ⟨_, place, Ping.behind_patience ((List.length_map _).trans length)⟩
  · obtain ⟨receiver, inside, ear, traffic, found, none, counts⟩ :=
      exists_traffic built rings realizes concluded known relays
    obtain ⟨-, sender, behind, name, -⟩ := follows.end_of_player known side
    have prev : circular.circuit.prev receiver =
        ((assembly.links.getD link default).endAt side).component := by
      rw [Circuit.prev, ear]
      rfl
    have lively := circular.lively_iff follows rings plays
      (fun _ _ => initiates_iff built circular) (prev ▸ behind)
    rw [name] at lively
    refine ⟨traffic, found, none, fun some => ?_, fun nobody => ?_⟩
    · rw [counts, Circuit.length_arrivals reaches inside (lively.mpr some)]
      rfl
    · rw [counts, Circuit.arrivals_of_not_lively (mt lively.mp nobody)]
      rfl

omit realizes reaches concluded in
/-- The run of players on rings comes to an end since all voters are ready: with at least one initiator,
however many there are, whatever the latencies and ranks are, where all initiators are told to play equally
many rounds. On several ranks no message may be due at the last instant. -/
theorem run_completes (tells : topology.Tells rounds)
    (initiator : ∃ spec ∈ topology.components, spec.type = Role.initiator.type)
    (unlimited : options.limit = .unlimited) {filter : Filter} {moment : Instant}
    (prompt : 2 ≤ simulation.ranks.length → simulation.Prompt filter) :
    (∃ fuel, simulation.run fuel filter moment ≠ none) ∧
      ∀ fuel result, simulation.run fuel filter moment = some result →
        ∃ report, result.outcome = .ok report ∧ report.Completes topology rounds := by
  obtain ⟨assembly, realizes⟩ := realizes_of_build built
  have circular := circular_of_rings built rings realizes tells
  have reaches := circular.circuit.reaches_around
  refine ⟨(run_of_circular built realizes reaches unlimited initiator prompt).1,
    fun fuel result runs => ?_⟩
  obtain ⟨report, ok, reason, concluded⟩ :=
    (run_of_circular built realizes reaches unlimited initiator prompt).2 fuel result runs
  exact ⟨report, ok, completes_of_concludes built rings realizes reaches concluded reason⟩

omit built rings realizes reaches concluded

/-- As many whole seconds as can be counted are before the last instant. -/
theorem seconds_lt_max {seconds : Nat} (few : seconds < 1 <<< 64) :
    seconds * 1000000000 < Instant.max.toNanos := by
  have bits : 1 <<< 64 = 18446744073709551616 := rfl
  have last : Instant.max.toNanos = 18446744073709551615999999999 := rfl
  omega

/-- Initiators of a chain are told to play the rounds that are given. -/
theorem tells_relayChain (stages : List (Role × Nat)) {rounds : Nat} (fits : rounds < 1 <<< 64) :
    (Topology.relayChain stages rounds).Tells rounds := by
  refine Topology.tells_of_players (fun spec inside => ?_) fits
  obtain ⟨position, -, rfl⟩ := (Topology.describes_relayChain stages rounds).exists_position inside
  exact ⟨_, _, _, rfl⟩

/-- No message of a chain takes longer than as many seconds as it has stages, for each one that is waited
for. -/
theorem due_of_relayChain {stages : List (Role × Nat)} (filter : Filter)
    (built : (build Player.registry options (.relayChain stages rounds) clock journal).2 =
      .ok simulation) (fits : rounds < 1 <<< 64) : simulation.Due filter fun time =>
        time.toNanos ≤ patience rounds * stages.length * 1000000000 := by
  have describes := Topology.describes_relayChain stages rounds
  have second : ∀ link ∈ (Topology.relayChain stages rounds).links, ∀ latency,
      Duration.ofSeconds link.latency = .ok latency → latency.toNanos ≤ 1000000000 := by
    intro link inside latency takes
    obtain ⟨position, -, rfl⟩ := describes.mem_links.mp inside
    obtain rfl := Except.ok.inj (ofSeconds_one.symm.trans takes)
    decide
  obtain ⟨assembly, realizes⟩ := realizes_of_build built
  have due : simulation.Due filter _ := due_of_latencies built realizes
    (circular_of_rings built describes.rings realizes (tells_relayChain stages fits)) second
  rwa [describes.length] at due

/-- None of them is due at the last instant, unless it plays that long. -/
theorem prompt_of_relayChain {stages : List (Role × Nat)} (filter : Filter)
    (built : (build Player.registry options (.relayChain stages rounds) clock journal).2 =
      .ok simulation) (fits : rounds < 1 <<< 64)
    (short : patience rounds * stages.length < 1 <<< 64) : simulation.Prompt filter := by
  intro system reached index event inside
  rw [Duration.lt_iff_toNanos_lt]
  exact (due_of_relayChain filter built fits system reached index event inside).trans_lt
    (seconds_lt_max short)

/-- Two initiators and a responder on two ranks: both initiators hear two messages, and so does the
responder. -/
theorem run_completes_relayChain :
    ∃ (topology : Topology) (simulation : Simulation Player) (report : Report Player),
      topology = .relayChain [(.initiator, 0), (.responder, 1), (.initiator, 1)] 2 ∧
      (build Player.registry {} topology Instant.zero ⟨Filter.off, #[]⟩).2 = .ok simulation ∧
      simulation.ranks.length = 2 ∧ topology.Rings ∧ topology.Tells 2 ∧
      (∃ spec ∈ topology.components, spec.type = Role.initiator.type) ∧
      simulation.Prompt Filter.off ∧
      ((simulation.run 8 Filter.off Instant.zero).bind fun result => result.outcome.toOption) =
        some report ∧
      report.Completes topology 2 := by
  obtain ⟨simulation, result, report, built, runs, ok, several⟩ := @exists_run _ _
    Player.registry {} (.relayChain [(.initiator, 0), (.responder, 1), (.initiator, 1)] 2)
    Instant.zero Instant.zero ⟨Filter.off, #[]⟩ Filter.off 8 _
    (fun simulation _ => simulation.ranks.length) 2 (by decide +kernel)
  have describes := Topology.describes_relayChain
    [(.initiator, 0), (.responder, 1), (.initiator, 1)] 2
  have tells : (Topology.relayChain [(.initiator, 0), (.responder, 1), (.initiator, 1)] 2).Tells 2 :=
    tells_relayChain _ (by decide)
  have initiator : ∃ spec ∈ (Topology.relayChain [(.initiator, 0), (.responder, 1),
      (.initiator, 1)] 2).components, spec.type = Role.initiator.type :=
    ⟨_, List.mem_of_getElem? (describes.getElem? (show 0 < 3 by decide)), rfl⟩
  have prompt := prompt_of_relayChain Filter.off built (by decide) (by decide)
  obtain ⟨same, good, completes⟩ :=
    (run_completes built describes.rings tells initiator rfl fun _ => prompt).2 8 result runs
  obtain rfl := Except.ok.inj (ok.symm.trans good)
  exact ⟨_, simulation, report, rfl, built, several, describes.rings, tells, initiator, prompt,
    by rw [runs, Option.bind_some, ok]; rfl, completes⟩

end Simulation

end Rally
