import Mathlib.Data.Option.Basic
import Rally.Proofs.Player.Creation
import Rally.Proofs.Pool.PlacementIndependence
import Rally.Proofs.Threads.SingleThread
/-!
# Players on other ranks

A player uses its rank for one thing alone: as a part of the word that it adds to a message. So two
simulations of the same players on other ranks differ in these words only, and the text of every message
spells the same route of players in both, each of them by its own word.
-/

namespace Rally

/-- The text that spells a route of components by their words. -/
def spell (words : ComponentId → String) (route : List ComponentId) : String :=
  "-".intercalate (route.map words)

/-- A route of one component. -/
theorem spell_singleton (words : ComponentId → String) (id : ComponentId) :
    spell words [id] = words id :=
  String.intercalate_singleton

/-- A route that goes on to another component. -/
theorem spell_concat (words : ComponentId → String) {route : List ComponentId} (some : route ≠ [])
    (id : ComponentId) : spell words (route ++ [id]) = spell words route ++ "-" ++ words id := by
  rw [spell, List.map_append, String.intercalate_append_of_ne_nil (by simpa using some) (by simp)]
  exact congrArg _ String.intercalate_singleton

/-- Whether two texts spell one route, each of them by words of its own. -/
def Spelled (words others : ComponentId → String) (text other : String) : Prop :=
  ∃ route, route ≠ [] ∧ text = spell words route ∧ other = spell others route

variable {words others : ComponentId → String} {id : ComponentId}

/-- The words of a component spell the route of this component alone. -/
theorem spelled_word (words others : ComponentId → String) (id : ComponentId) :
    Spelled words others (words id) (others id) :=
  ⟨[id], List.cons_ne_nil _ _, (spell_singleton words id).symm, (spell_singleton others id).symm⟩

/-- What players answer to texts that spell one route spells one route. -/
theorem Spelled.answer {text other : String} (spelled : Spelled words others text other)
    {play : Play} {role : Role} {rank also : RankId} (word : play.opening role rank = words id)
    (twin : play.opening role also = others id) :
    Spelled words others (play.answer role rank text) (play.answer role also other) := by
  cases play with
  | loop =>
    have same := spelled_word words others id
    rw [← word, ← twin] at same
    exact same
  | relay =>
    obtain ⟨route, nonempty, rfl, rfl⟩ := spelled
    refine ⟨route ++ [id], List.append_ne_nil_of_right_ne_nil _ (List.cons_ne_nil _ _), ?_, ?_⟩
    · rw [spell_concat words nonempty, ← word]
      rfl
    · rw [spell_concat others nonempty, ← twin]
      rfl

/-- Whether two initiators differ in their words alone. -/
structure Ping.Alike (words others : ComponentId → String) (id : ComponentId) (ping other : Ping) :
    Prop where
  /-- They are joined to others in the same way. -/
  play : ping.play = other.play
  /-- They have played as many rounds. -/
  roundCount : ping.roundCount = other.roundCount
  /-- They are to play as many rounds. -/
  maxRounds : ping.maxRounds = other.maxRounds
  /-- They have sent as many messages. -/
  sent : ping.sent = other.sent
  /-- They have received as many messages. -/
  received : ping.received = other.received
  /-- They vote alike. -/
  voter : ping.voter = other.voter
  /-- The last texts received spell one route. -/
  last : Option.Rel (Spelled words others) ping.last other.last
  /-- The one adds its word to messages. -/
  word : ping.play.opening .initiator ping.rank = words id
  /-- The other one adds its own. -/
  twin : other.play.opening .initiator other.rank = others id

/-- Whether two responders differ in their words alone. -/
structure Pong.Alike (words others : ComponentId → String) (id : ComponentId) (pong other : Pong) :
    Prop where
  /-- They are joined to others in the same way. -/
  play : pong.play = other.play
  /-- They have sent as many messages. -/
  sent : pong.sent = other.sent
  /-- They have received as many messages. -/
  received : pong.received = other.received
  /-- The last texts received spell one route. -/
  last : Option.Rel (Spelled words others) pong.last other.last
  /-- The one adds its word to messages. -/
  word : pong.play.opening .responder pong.rank = words id
  /-- The other one adds its own. -/
  twin : other.play.opening .responder other.rank = others id

namespace Ping

/-- How an initiator reacts to the last message that it waits for. -/
theorem handle_last (ping : Ping) (text : String) (enough : ping.maxRounds ≤ ping.roundCount + 1) :
    ping.handle (.text text) =
      { component := { ping.hear text with voter := ping.voter.signal.1 }
        votes := ping.voter.signal.2.1
        notes := [note ["Received message: ", text],
          note ["Repeats: ", toString (ping.roundCount + 1)]] ++ ping.voter.signal.2.2 } :=
  if_pos enough

/-- How an initiator reacts to a message when it waits for more. -/
theorem handle_more (ping : Ping) (text : String) (more : ¬ ping.maxRounds ≤ ping.roundCount + 1) :
    ping.handle (.text text) =
      (ping.hear text).send (ping.play.answer .initiator ping.rank text)
        [note ["Received message: ", text], note ["Repeats: ", toString (ping.roundCount + 1)]] :=
  if_neg more

end Ping

namespace Player

/-- The word that a player adds to messages. -/
def word : Player → String
  | .ping player => player.play.opening .initiator player.rank
  | .pong player => player.play.opening .responder player.rank

/-- Whether two players differ in their words alone. -/
inductive Alike (words others : ComponentId → String) (id : ComponentId) : Player → Player → Prop where
  /-- Both are initiators. -/
  | ping {ping other : Ping} (alike : ping.Alike words others id other) :
      Alike words others id (.ping ping) (.ping other)
  /-- Both are responders. -/
  | pong {pong other : Pong} (alike : pong.Alike words others id other) :
      Alike words others id (.pong pong) (.pong other)

/-- The likeness of players on other ranks: messages spell one route, and players differ in their words
alone. -/
def likeness (words others : ComponentId → String) : Likeness Player where
  rank _ _ := True
  message message other := ∃ text twin, message = .text text ∧ other = .text twin ∧
    Spelled words others text twin
  state := Alike words others

/-- Where players differ in their words alone, so do their reactions. -/
theorem respected (words others : ComponentId → String) : (likeness words others).Respected := by
  refine ⟨fun id state other name now rank also _ alike => ?_,
    fun id state other name now rank also port message more _ alike same => ?_⟩
  · cases alike with
    | @ping ping other alike =>
      refine ⟨.ping ⟨alike.play, alike.roundCount, alike.maxRounds, congrArg (· + 1) alike.sent,
        alike.received, alike.voter, alike.last, alike.word, alike.twin⟩, .cons ⟨?_, ?_⟩ .nil⟩
      · exact congrArg Play.output alike.play
      · refine ⟨_, _, rfl, rfl, ?_⟩
        rw [alike.word, alike.twin]
        exact spelled_word words others id
    | pong alike => exact ⟨.pong alike, .nil⟩
  · obtain ⟨text, twin, rfl, rfl, spelled⟩ := same
    cases alike with
    | @ping ping other alike =>
      have rounds : (ping.hear text).roundCount = (other.hear twin).roundCount :=
        congrArg (· + 1) alike.roundCount
      have heard : (ping.hear text).Alike words others id (other.hear twin) :=
        ⟨alike.play, rounds, alike.maxRounds, alike.sent, congrArg (· + 1) alike.received,
          alike.voter, .some spelled, alike.word, alike.twin⟩
      change Likeness.Reactions _ id ((ping.handle (.text text)).map Player.ping)
        ((other.handle (.text twin)).map Player.ping)
      by_cases enough : ping.maxRounds ≤ ping.roundCount + 1
      · have enoughToo : other.maxRounds ≤ other.roundCount + 1 := by
          rwa [← alike.maxRounds, ← alike.roundCount]
        rw [ping.handle_last text enough, other.handle_last twin enoughToo]
        refine ⟨.ping { heard with voter := ?_ }, .nil⟩
        exact congrArg (fun voter => voter.signal.1) alike.voter
      · have moreToo : ¬ other.maxRounds ≤ other.roundCount + 1 := by
          rwa [← alike.maxRounds, ← alike.roundCount]
        rw [ping.handle_more text enough, other.handle_more twin moreToo]
        refine ⟨.ping { heard with sent := congrArg (· + 1) alike.sent },
          .cons ⟨congrArg Play.output alike.play, ?_⟩ .nil⟩
        refine ⟨_, _, rfl, rfl, ?_⟩
        have word := alike.word
        rw [alike.play] at word ⊢
        exact spelled.answer word alike.twin
    | @pong pong other alike =>
      refine ⟨.pong ⟨alike.play, congrArg (· + 1) alike.sent, congrArg (· + 1) alike.received,
        .some spelled, alike.word, alike.twin⟩, .cons ⟨congrArg Play.output alike.play, ?_⟩ .nil⟩
      refine ⟨_, _, rfl, rfl, ?_⟩
      have word := alike.word
      rw [alike.play] at word ⊢
      exact spelled.answer word alike.twin

/-- A player that was created receives at one port only. -/
theorem Made.ear {part : Part Player} {slot : Slot Player} {votes : List Vote}
    (made : Made part slot.component slot.ports votes) {port other : PortId}
    (hears : slot.receives port = true) (hearsToo : slot.receives other = true) : port = other := by
  have one {ports : Ports} {play : Play}
      (configured : Play.Configured (fun port => part.wiring.lookup port) play ports)
      (here : slot.ports = ports) : ∃ ear, ∀ port, slot.receives port = true → port = ear := by
    cases configured with
    | loop =>
      refine ⟨0, fun port hears => ?_⟩
      rw [Slot.receives, Slot.binding?, here] at hears
      rcases port with _ | _ | _ | port
      · rfl
      all_goals simp at hears
    | relay =>
      refine ⟨1, fun port hears => ?_⟩
      rw [Slot.receives, Slot.binding?, here] at hears
      rcases port with _ | _ | _ | port
      · simp at hears
      · rfl
      all_goals simp at hears
  obtain ⟨play, configured⟩ : ∃ play,
      Play.Configured (fun port => part.wiring.lookup port) play slot.ports := by
    generalize slot.component = player at made
    cases made with
    | ping _ _ configured | pong _ configured => exact ⟨_, configured⟩
  obtain ⟨ear, only⟩ := one configured rfl
  exact (only port hears).trans (only other hearsToo).symm

/-- Two players that were created for parts that differ in their ranks alone differ in their words
alone. -/
theorem Made.alike {part twin : Part Player} {player other : Player} {ports also : Ports}
    {votes more : List Vote} (made : Made part player ports votes)
    (created : Made twin other also more) (type : part.type = twin.type)
    (params : part.params = twin.params)
    (wired : ∀ port, part.wiring.lookup port = twin.wiring.lookup port)
    (word : player.word = words id) (own : other.word = others id) :
    ports = also ∧ Alike words others id player other := by
  have same : (fun port => part.wiring.lookup port) = fun port => twin.wiring.lookup port :=
    funext wired
  cases made with
  | ping role told configured =>
    cases created with
    | ping _ toldToo configuredToo =>
      rw [params, toldToo] at told
      cases told
      rw [same] at configured
      obtain ⟨rfl, rfl⟩ := configured.eq configuredToo
      exact ⟨rfl, .ping ⟨rfl, rfl, rfl, rfl, rfl, rfl, .none, word, own⟩⟩
    | pong otherRole =>
      rw [type, otherRole] at role
      exact absurd role (by decide)
  | pong role configured =>
    cases created with
    | ping otherRole =>
      rw [type, otherRole] at role
      exact absurd role (by decide)
    | pong _ configuredToo =>
      rw [same] at configured
      obtain ⟨rfl, rfl⟩ := configured.eq configuredToo
      exact ⟨rfl, .pong ⟨rfl, rfl, rfl, .none, word, own⟩⟩

end Player

namespace Simulation

variable {options choices : Options} {topology : Topology} {former latter : ComponentId → RankId}
  {clock moment : Instant} {journal records : Journal} {simulation other : Simulation Player}

/-- The word that the player of a position adds to messages. -/
def word (simulation : Simulation Player) (id : ComponentId) : String :=
  ((simulation.places id).map fun seat => seat.slot.component.word).getD ""

/-- The place of a player is the one that was created for the component of its position. -/
theorem made_of_places
    (built : (build Player.registry options topology clock journal).2 = .ok simulation) :
    ∃ assembly, simulation.Realizes Player.registry topology assembly ∧
      ∀ id seat, simulation.places id = some seat → ∃ spec part votes,
        topology.components[id]? = some spec ∧ assembly.parts[id]? = some part ∧
        Assembly.Describes Player.registry spec part ∧ seat.slot.name = part.name ∧
        seat.rank = part.rank ∧ Player.Made part seat.slot.component seat.slot.ports votes := by
  obtain ⟨assembly, realizes, created⟩ := created_of_places built
  refine ⟨assembly, realizes, fun id seat there => ?_⟩
  obtain ⟨spec, part, placed, known, present, describes, creates, rfl⟩ := created id seat there
  have player := Player.made_of_creates creates describes.type
  obtain ⟨fitted, -, rfl⟩ := creates
  exact ⟨spec, part, _, known, present, describes, rfl, rfl, player⟩

/-- Each player receives at one port only. -/
theorem ear_of_build
    (built : (build Player.registry options topology clock journal).2 = .ok simulation) :
    OneEar simulation.places := by
  obtain ⟨assembly, -, made⟩ := made_of_places built
  intro id seat port other there hears hearsToo
  obtain ⟨spec, part, votes, -, -, -, -, -, made⟩ := made id seat there
  exact made.ear hears hearsToo

/-- Players of a topology that are placed on other ranks differ in their words alone. -/
theorem alike_of_build
    (built : (build Player.registry options (topology.place former) clock journal).2 =
      .ok simulation)
    (also : (build Player.registry choices (topology.place latter) moment records).2 =
      .ok other) :
    ∀ id seat twin, simulation.places id = some seat → other.places id = some twin →
      (Player.likeness simulation.word other.word).Places id seat twin := by
  obtain ⟨assembly, realizes, made⟩ := made_of_places built
  obtain ⟨frame, realizesToo, madeToo⟩ := made_of_places also
  intro id seat twin there here
  obtain ⟨spec, part, votes, known, present, describes, name, -, player⟩ := made id seat there
  obtain ⟨another, double, more, found, extant, depicts, nameToo, -, playerToo⟩ :=
    madeToo id twin here
  rw [Topology.getElem?_place] at known found
  obtain ⟨bare, first, rfl⟩ := Option.map_eq_some_iff.mp known
  rw [first] at found
  cases found
  have type : part.type = double.type :=
    Option.some.inj (describes.type.symm.trans depicts.type)
  have params : part.params = double.params := by
    have texts : Except.ok part.params = Except.ok double.params :=
      describes.params.symm.trans depicts.params
    exact Except.ok.inj texts
  have word : seat.slot.component.word = simulation.word id := by
    rw [Simulation.word, there]
    rfl
  have own : twin.slot.component.word = other.word id := by
    rw [Simulation.word, here]
    rfl
  obtain ⟨ports, alike⟩ := player.alike playerToo type params
    (realizes.follows.lookup_eq realizesToo.follows present extant) word own
  refine ⟨?_, ports, trivial, alike⟩
  exact (name.trans describes.name).trans (nameToo.trans depicts.name).symm

/-- Where the components of a topology receive at one port only and make no use of their ranks but for
what a likeness ignores, they do the same on whatever ranks they are placed and under any limit: in all
runs that come to a good end each of them handles alike messages at the same times, as far as both runs
go, and is in alike states behind as many of them. Players are such components, and spell the same routes. -/
theorem independent_of_placement :
    (∀ (C : Type) [Component C] (registry : Registry C) (topology : Topology)
      (former latter : ComponentId → RankId) (options choices : Options) (clock moment : Instant)
      (journal records : Journal) (simulation other : Simulation C) (like : Likeness C),
      (build registry options (topology.place former) clock journal).2 = .ok simulation →
      (build registry choices (topology.place latter) moment records).2 = .ok other →
      like.Respected →
      (∀ id seat twin, simulation.places id = some seat → other.places id = some twin →
        like.Places id seat twin) →
      OneEar simulation.places → simulation.AgreesWith like other) ∧
    ∀ (topology : Topology) (former latter : ComponentId → RankId) (options choices : Options)
      (clock moment : Instant) (journal records : Journal) (simulation other : Simulation Player),
      (build Player.registry options (topology.place former) clock journal).2 = .ok simulation →
      (build Player.registry choices (topology.place latter) moment records).2 = .ok other →
      OneEar simulation.places ∧
        simulation.AgreesWith (Player.likeness simulation.word other.word) other := by
  refine ⟨fun C _ registry topology former latter options choices clock moment journal records
    simulation other like built also respected alike ear =>
      agreesWith_of_build built also respected alike ear, ?_⟩
  intro topology former latter options choices clock moment journal records simulation other built also
  have ear := ear_of_build built
  exact ⟨ear, agreesWith_of_build built also (Player.respected _ _) (alike_of_build built also) ear⟩

/-- A run that comes to a good end passes through its last state. -/
theorem passes_of_run {C : Type} [Component C] {registry : Registry C} {topology : Topology}
    {simulation : Simulation C} {filter : Filter} {fuel : Nat} {result : RunResult C}
    (built : (build registry options topology clock journal).2 = .ok simulation)
    (runs : simulation.run fuel filter moment = some result) {report : Report C}
    (ok : result.outcome = .ok report) : ∃ system, simulation.Passes filter system ∧
      report = Report.ofRanks report.reason
        (List.ofFn fun index => (system.threads index).rank) := by
  obtain ⟨turns, system, reached, verdict, same⟩ := exec_of_run built runs ok
  exact ⟨system, ⟨turns, [], system, _, reached, rfl, verdict⟩, same⟩

/-- Two players on one rank and on two. -/
theorem independent_of_placement_relayChain :
    let chain : Topology := .relayChain [(.initiator, 0), (.responder, 0)] 2
    ∃ (simulation other : Simulation Player) (system : System Player simulation.ranks.length)
      (twin : System Player other.ranks.length),
      (build Player.registry {} (chain.place fun _ => 0) Instant.zero ⟨Filter.off, #[]⟩).2 =
        .ok simulation ∧
      (build Player.registry {} (chain.place fun id => id) Instant.zero ⟨Filter.off, #[]⟩).2 =
        .ok other ∧
      simulation.ranks.length = 1 ∧ other.ranks.length = 2 ∧
      simulation.Passes Filter.off system ∧ other.Passes Filter.off twin ∧
      (∀ id, system.Agrees (Player.likeness simulation.word other.word) id twin) ∧
      OneEar simulation.places := by
  intro chain
  have ends (ranks : ComponentId → RankId) (count : Nat) (same : ((build Player.registry {}
      (chain.place ranks) Instant.zero ⟨Filter.off, #[]⟩).2.toOption.map fun simulation =>
        (simulation.ranks.length, (simulation.run 8 Filter.off Instant.zero).map fun result =>
          result.outcome.toOption.isSome)) = some (count, some true)) :
      ∃ simulation : Simulation Player, ∃ system : System Player simulation.ranks.length,
        (build Player.registry {} (chain.place ranks) Instant.zero ⟨Filter.off, #[]⟩).2 =
          .ok simulation ∧ simulation.ranks.length = count ∧ simulation.Passes Filter.off system := by
    cases built : (build Player.registry {} (chain.place ranks) Instant.zero
        ⟨Filter.off, #[]⟩).2 with
    | error problem =>
      rw [built] at same
      cases same
    | ok simulation =>
      rw [built] at same
      simp only [Except.toOption, Option.map_some, Option.some.injEq, Prod.mk.injEq] at same
      obtain ⟨size, ran⟩ := same
      obtain ⟨result, runs, good⟩ := Option.map_eq_some_iff.mp ran
      obtain ⟨report, ok⟩ : ∃ report, result.outcome = .ok report := by
        cases outcome : result.outcome with
        | error halt =>
          rw [outcome] at good
          cases good
        | ok report => exact ⟨report, rfl⟩
      obtain ⟨system, passes, -⟩ := passes_of_run built runs ok
      exact ⟨simulation, system, rfl, size, passes⟩
  obtain ⟨simulation, system, built, one, passes⟩ := ends (fun _ => 0) 1 (by decide +kernel)
  obtain ⟨other, twin, also, two, passesToo⟩ := ends (fun id => id) 2 (by decide +kernel)
  obtain ⟨ear, agrees⟩ := independent_of_placement.2 chain (fun _ => 0) (fun id => id) {} {}
    Instant.zero Instant.zero ⟨Filter.off, #[]⟩ ⟨Filter.off, #[]⟩ simulation other built also
  exact ⟨simulation, other, system, twin, built, also, one, two, passes, passesToo,
    agrees _ _ _ _ passes passesToo, ear⟩

end Simulation

end Rally
