import Rally.Proofs.Player.Rings
import Rally.Proofs.Pool.ComponentInvariants
import Rally.Proofs.Pool.RunErrors
/-!
# The protocol of players

However players are joined to others, they say texts alone, on a port that is configured, and go on behind
every text that they hear. So a run of players fails only where a text arrives at an output, which a link
joins to another port on which players speak.
-/

namespace Rally

/-- Whether the player of a position is joined to others in a way to play, through ports. -/
def Assembly.Plays (assembly : Assembly Player) (id : ComponentId) (play : Play) (ports : Ports) : Prop :=
  ∃ part, assembly.parts[id]? = some part ∧
    Play.Configured (fun port => part.wiring.lookup port) play ports

/-- A port to which a link is attached, but at which a player does not hear, is its output. -/
theorem Play.Configured.deaf {wired : PortId → Option (LinkId × Side)} {play : Play} {slot : Slot Player}
    (configured : Configured wired play slot.ports) {name : String} {port : PortId}
    (declared : portId? Play.ports name = some port) (attached : (wired port).isSome)
    (deaf : slot.receives port = false) : name = "output" := by
  have few : port < 3 := (List.findIdx?_eq_some_iff_getElem.mp declared).1
  generalize here : slot.ports = ports at configured
  rw [Slot.receives, Slot.binding?, here] at deaf
  have number : port = 0 ∨ port = 1 ∨ port = 2 := by
    simp only [PortId] at few ⊢
    omega
  cases configured with
  | loop inout input output =>
    rcases number with rfl | rfl | rfl
    · cases deaf
    · rw [input] at attached
      cases attached
    · rw [output] at attached
      cases attached
  | relay inout input output =>
    rcases number with rfl | rfl | rfl
    · rw [inout] at attached
      cases attached
    · cases deaf
    · exact Assembly.port_eq declared rfl

/-- A player speaks on a port for both directions or on an output. -/
theorem Play.Configured.speaks {wired : PortId → Option (LinkId × Side)} {play : Play} {ports : Ports}
    (configured : Configured wired play ports) {name : String}
    (declared : portId? Play.ports name = some play.output) : name = "output" ∨ name = "inout" := by
  cases configured with
  | loop => exact Or.inr (Assembly.port_eq declared rfl)
  | relay => exact Or.inl (Assembly.port_eq declared rfl)

namespace Player

/-- Whether a player goes on, joined to others as before, and says texts alone. -/
structure Speaks (player : Player) (reaction : Reaction Player) : Prop where
  /-- It goes on. -/
  completed : reaction.outcome = .completed
  /-- It stays as it is joined to others. -/
  play : reaction.component.play = player.play
  /-- It says texts, on its port. -/
  texts : ∀ send ∈ reaction.sends, send.1 = player.play.output ∧ ∃ text, send.2 = .text text

/-- A player that says one text on its port does so. -/
theorem Speaks.single {player : Player} {reaction : Reaction Player} {text : String}
    (completed : reaction.outcome = .completed) (play : reaction.component.play = player.play)
    (sends : reaction.sends = [(player.play.output, .text text)]) : player.Speaks reaction := by
  refine ⟨completed, play, fun send inside => ?_⟩
  rw [sends] at inside
  rw [List.mem_singleton.mp inside]
  exact ⟨rfl, text, rfl⟩

/-- So does one that is silent. -/
theorem Speaks.silent {player : Player} {reaction : Reaction Player}
    (completed : reaction.outcome = .completed) (play : reaction.component.play = player.play)
    (sends : reaction.sends = []) : player.Speaks reaction :=
  ⟨completed, play, fun _ inside => absurd (sends ▸ inside) List.not_mem_nil⟩

/-- Players begin as the protocol asks. -/
theorem speaks_setup (player : Player) (context : Context) :
    player.Speaks (Component.setup player context) := by
  cases player with
  | ping player => exact .single rfl rfl rfl
  | pong player => exact .silent rfl rfl rfl

/-- They answer texts as it asks. -/
theorem speaks_handle (player : Player) (context : Context) (port : PortId) (text : String) :
    player.Speaks (Component.handle player context port (.text text)) := by
  cases player with
  | ping player =>
    change (Player.ping player).Speaks ((player.handle (.text text)).map .ping)
    by_cases enough : player.maxRounds ≤ player.roundCount + 1
    · rw [player.handle_last text enough]
      exact .silent rfl rfl rfl
    · rw [player.handle_more text enough]
      exact .single rfl rfl rfl
  | pong player => exact .single rfl rfl rfl

variable {assembly : Assembly Player} {id : ComponentId} {slot : Slot Player} {reaction : Reaction Player}
  {links : Array Link}

/-- The custom of the players of an assembly: each of them is joined to others as its part is, and says texts
on its port. -/
def custom (assembly : Assembly Player) : Custom Player where
  slot id slot := slot.declared = Play.ports ∧ assembly.Plays id slot.component.play slot.ports
  message id port message :=
    (∃ text, message = .text text) ∧ ∃ play ports, assembly.Plays id play ports ∧ port = play.output

/-- Players that speak as the protocol asks keep to their custom. -/
theorem Speaks.allows (speaks : slot.component.Speaks reaction) (placed : (custom assembly).slot id slot) :
    (custom assembly).Allows id slot reaction := by
  obtain ⟨declared, plays⟩ := placed
  refine ⟨⟨declared, ?_⟩, fun send inside => ?_⟩
  · rwa [speaks.play]
  · obtain ⟨port, text⟩ := speaks.texts send inside
    exact ⟨text, _, _, plays, port⟩

/-- They do not send on a port that is not configured. -/
theorem Speaks.not_strays (speaks : slot.component.Speaks reaction)
    (placed : (custom assembly).slot id slot) (port : PortId) : ¬ slot.Strays reaction.sends port := by
  rintro ⟨former, message, latter, sends, -, unbound⟩
  obtain ⟨rfl, -⟩ := speaks.texts (port, message) (by
    rw [sends]
    exact List.mem_append_right _ List.mem_cons_self)
  obtain ⟨-, part, -, configured⟩ := placed
  obtain ⟨link, side, mode, bound⟩ := configured.output
  cases unbound.symm.trans bound

/-- The finish hook of a player does not break off. -/
theorem not_breaks (thread : Thread Player) (panic : Panic) : ¬ thread.Breaks panic := by
  rintro ⟨reason, id, rest, -, slot, -, breaks⟩
  rw [quiet] at breaks
  cases breaks

/-- Players respect their custom. -/
theorem respected_custom (assembly : Assembly Player) : (custom assembly).Respected links := by
  refine ⟨fun id slot context placed => (speaks_setup _ context).allows placed,
    fun delivery slot context known brings placed receives => ?_, fun id slot context placed => ?_⟩
  · obtain ⟨⟨text, said⟩, -⟩ := brings
    rw [said]
    exact (speaks_handle _ context _ text).allows placed
  · rwa [quiet]

end Player

/-- Whether a link joins an output to another one, or to a port for both directions. -/
def LinkSpec.Clashes (spec : LinkSpec) : Prop :=
  ∃ side, (spec.endAt side).port = "output" ∧
    ((spec.endAt side.opposite).port = "output" ∨ (spec.endAt side.opposite).port = "inout")

/-- Whether a link does so is decided by its two ends. -/
instance (spec : LinkSpec) : Decidable spec.Clashes :=
  decidable_of_iff
    (((spec.endAt .a).port = "output" ∧ ((spec.endAt .b).port = "output" ∨ (spec.endAt .b).port = "inout")) ∨
      (spec.endAt .b).port = "output" ∧ ((spec.endAt .a).port = "output" ∨ (spec.endAt .a).port = "inout"))
    ⟨fun clash => clash.elim (fun first => ⟨.a, first⟩) fun second => ⟨.b, second⟩,
      fun ⟨side, clash⟩ => match side with
        | .a => Or.inl clash
        | .b => Or.inr clash⟩

/-- Whether a rank halts since a message arrived at an output. -/
def Halt.IsAtOutput (halt : Halt) : Prop :=
  ∃ name, halt = .failed (.componentFault name (.noHandler "output"))

namespace Simulation

variable {options : Options} {topology : Topology} {clock : Instant} {journal : Journal}
  {simulation : Simulation Player} {filter : Filter}
  {schedule : List (Fin simulation.ranks.length)} {system : System Player simulation.ranks.length}
  {index : Fin simulation.ranks.length}

/-- Players are placed as their custom asks. -/
theorem custom_of_places
    (built : (build Player.registry options topology clock journal).2 = .ok simulation) :
    ∃ assembly, simulation.Realizes Player.registry topology assembly ∧
      ∀ id seat, simulation.places id = some seat → (Player.custom assembly).slot id seat.slot := by
  obtain ⟨assembly, realizes, created⟩ := created_of_places built
  refine ⟨assembly, realizes, fun id seat there => ?_⟩
  obtain ⟨spec, part, placed, -, present, describes, creates, rfl⟩ := created id seat there
  have player := Player.made_of_creates creates describes.type
  obtain ⟨fitted, -, rfl⟩ := creates
  exact ⟨Player.ports_of_registry describes.type, part, present, player.configured⟩

variable (built : (build Player.registry options topology clock journal).2 = .ok simulation)
  (reached : (simulation.launch filter).exec simulation.plan schedule = some system)

include built reached

/-- Where a call of a hook of a player fails, a text arrives at an output, over a link that joins it to another
port on which players speak. -/
theorem clashes_of_fails {halt : Halt} (fails : (system.threads index).Fails simulation.plan halt) :
    halt.IsAtOutput ∧ ∃ spec ∈ topology.links, spec.Clashes := by
  obtain ⟨assembly, realizes, fresh⟩ := custom_of_places built
  have observes := observes_of_exec built realizes (Player.respected_custom assembly) fresh reached
  have kept := kept_of_exec built realizes reached
  cases fails with
  | setup before fails =>
    cases fails with
    | panicked owned breaks => cases breaks.symm.trans (Player.speaks_setup _ _).completed
    | unconfigured owned returns strays =>
      exact absurd strays ((Player.speaks_setup _ _).not_strays (observes.slots index _ _ owned) _)
  | @dispatch event pending halt before turn fails =>
    have waits := ((kept.steady.threads index).timed.sound.first_of_pop (Rank.turn_ok turn).1).1
    have known := (kept.flowing.addressed.pending index event waits).known
    obtain ⟨⟨text, said⟩, play, ports, plays, speaks⟩ := observes.brings kept.flowing realizes.covers
      kept.steady.carried (.waits waits)
    have goal : (system.threads index).rank.receiver event.payload = event.payload.goal assembly.links := by
      rw [Rank.receiver, Rank.link, kept.steady.wired.links index]
      rfl
    have answers (slot : Slot Player) :
        slot.component.Speaks ((system.threads index).rank.answer event slot) := by
      rw [Rank.answer, said]
      exact Player.speaks_handle _ _ _ text
    cases fails with
    | violated _ _ violates => cases violates.symm.trans (answers _).completed
    | panicked _ _ breaks => cases breaks.symm.trans (answers _).completed
    | unconfigured owned _ _ strays =>
      exact absurd strays ((answers _).not_strays (observes.slots index _ _ owned) _)
    | @noHandler slot owned deaf =>
      rw [goal] at owned deaf ⊢
      obtain ⟨declared, part, present, configured⟩ := observes.slots index _ _ owned
      obtain ⟨spec, there⟩ := realizes.follows.exists_link known
      obtain ⟨-, _, -, -, far⟩ := realizes.follows.end_of_player there event.payload.arrival
      obtain ⟨-, _, -, -, near⟩ := realizes.follows.end_of_player there event.payload.arrival.opposite
      have attached := (realizes.follows.lookup_iff present).mpr ⟨known, rfl, rfl⟩
      have output := configured.deaf far (Option.isSome_iff_exists.mpr ⟨_, attached⟩) deaf
      obtain ⟨_, -, configuredToo⟩ := plays
      have plays : portId? Play.ports (spec.endAt event.payload.arrival.opposite).port = some play.output :=
        near.trans (congrArg some speaks)
      refine ⟨⟨slot.name, ?_⟩, spec, List.mem_of_getElem? there, event.payload.arrival, output,
        configuredToo.speaks plays⟩
      rw [output] at far
      have port : (event.payload.goal assembly.links).port = 2 := (Option.some.inj far).symm
      rw [Slot.fault, Slot.portName, declared, port]
      rfl

/-- Where a run of players ends with an error, a text arrives at an output that a link joins to another port on
which players speak. -/
theorem clashes_of_error (complete : system.Complete) {error : Halt}
    (ended : system.ending? = some (.error error)) :
    error.IsAtOutput ∧ ∃ spec ∈ topology.links, spec.Clashes := by
  obtain ⟨turns, former, arrives, yields⟩ := yields_of_exec built reached complete ended
  cases yields with
  | own fails => exact clashes_of_fails built arrives fails
  | passed fails =>
    obtain ⟨⟨name, rfl⟩, clashes⟩ := clashes_of_fails built arrives fails
    exact ⟨⟨name, rfl⟩, clashes⟩
  | broken breaks => exact absurd breaks (Player.not_breaks _ _)

end Simulation

/-- What the runs of a simulation of players keep to. -/
structure Simulation.KeepsProtocol (topology : Topology) (filter : Filter)
    (simulation : Simulation Player) : Prop where
  /-- A call of a hook fails only where a text arrives at an output, which a link joins to another port on which
  players speak. -/
  calls : ∀ schedule system, (simulation.launch filter).exec simulation.plan schedule = some system →
    ∀ index halt, (system.threads index).Fails simulation.plan halt →
      halt.IsAtOutput ∧ ∃ spec ∈ topology.links, spec.Clashes
  /-- No finish hook breaks off. -/
  finishes : ∀ schedule system, (simulation.launch filter).exec simulation.plan schedule = some system →
    ∀ index panic, ¬ (system.threads index).Breaks panic
  /-- A run ends with an error for such a call alone, in whatever order its threads go on. -/
  endings : ∀ schedule system, (simulation.launch filter).exec simulation.plan schedule = some system →
    system.Complete → ∀ error, system.ending? = some (.error error) →
      error.IsAtOutput ∧ ∃ spec ∈ topology.links, spec.Clashes
  /-- So does each run that comes to an end. -/
  errors : ∀ fuel moment result, simulation.run fuel filter moment = some result →
    ∀ error, result.outcome = .error error → error.IsAtOutput
  /-- Where no link joins an output to another port on which players speak, all runs come to a good end. -/
  fine : (∀ spec ∈ topology.links, ¬ spec.Clashes) →
    ∀ fuel moment result, simulation.run fuel filter moment = some result →
      ∃ report, result.outcome = .ok report

/-- Two players on a rank each that are joined in both directions, and another one that is joined to itself. -/
def Topology.pairAndSelf : Topology :=
  (((({} : Topology).addPlayer "ping" .initiator 0 2).addPlayer "pong" .responder 1 2).addPlayer
      "self" .initiator 1 3)
    |>.addLink "both" Binary64.one ⟨"ping", "inout"⟩ ⟨"pong", "inout"⟩
    |>.addLink "round" Binary64.one ⟨"self", "output"⟩ ⟨"self", "input"⟩

namespace Simulation

variable {options : Options} {topology : Topology} {clock : Instant} {journal : Journal}
  {simulation : Simulation Player}

/-- However players are joined to others, their runs fail only where a message arrives at an output, so never
since a message is of an unexpected kind or a port is not configured; and where no output is joined to another
port on which players speak, they never fail. -/
theorem keepsProtocol_of_build
    (built : (build Player.registry options topology clock journal).2 = .ok simulation) (filter : Filter) :
    simulation.KeepsProtocol topology filter := by
  have clashes {fuel : Nat} {moment : Instant} {result : RunResult Player}
      (runs : simulation.run fuel filter moment = some result) {error : Halt}
      (outcome : result.outcome = .error error) :
      error.IsAtOutput ∧ ∃ spec ∈ topology.links, spec.Clashes := by
    obtain ⟨schedule, system, reached, complete, ended⟩ := error_of_run built runs outcome
    exact clashes_of_error built reached complete ended
  refine ⟨fun schedule system reached index halt fails => clashes_of_fails built reached fails,
    fun schedule system reached index panic => Player.not_breaks _ _,
    fun schedule system reached complete error ended => clashes_of_error built reached complete ended,
    fun fuel moment result runs error outcome => (clashes runs outcome).1,
    fun apart fuel moment result runs => ?_⟩
  cases outcome : result.outcome with
  | ok report => exact ⟨report, rfl⟩
  | error error =>
    obtain ⟨-, spec, inside, clash⟩ := clashes runs outcome
    exact absurd clash (apart spec inside)

/-- Where outputs are joined to each other a run fails for a message that arrives at one; players that are joined
in both directions, or to themselves, come to a good end. -/
theorem keepsProtocol_of_build_pairAndSelf :
    (∃ (simulation : Simulation Player) (result : RunResult Player) (error : Halt),
      (build Player.registry {} (.clash 0 1) Instant.zero ⟨Filter.off, #[]⟩).2 = .ok simulation ∧
      simulation.run 8 Filter.off Instant.zero = some result ∧ result.outcome = .error error ∧
      error.IsAtOutput) ∧
    ∃ (simulation : Simulation Player) (result : RunResult Player) (report : Report Player),
      (build Player.registry {} .pairAndSelf Instant.zero ⟨Filter.off, #[]⟩).2 = .ok simulation ∧
      simulation.ranks.length = 2 ∧ (∀ spec ∈ Topology.pairAndSelf.links, ¬ spec.Clashes) ∧
      simulation.run 8 Filter.off Instant.zero = some result ∧ result.outcome = .ok report := by
  constructor
  · obtain ⟨simulation, result, built, -, runs, outcome⟩ := @exists_error _ _
      Player.registry {} (.clash 0 1) Instant.zero Instant.zero ⟨Filter.off, #[]⟩ Filter.off 8
      (.componentFault "pong" (.noHandler "output")) 2 (by decide +kernel)
    exact ⟨simulation, result, _, built, runs, outcome,
      (keepsProtocol_of_build built Filter.off).errors 8 Instant.zero result runs _ outcome⟩
  · have apart : ∀ spec ∈ Topology.pairAndSelf.links, ¬ spec.Clashes := by decide
    obtain ⟨simulation, result, -, built, runs, -, several⟩ := @exists_run _ _
      Player.registry {} .pairAndSelf Instant.zero Instant.zero ⟨Filter.off, #[]⟩ Filter.off 8 _
      (fun simulation _ => simulation.ranks.length) 2 (by decide +kernel)
    obtain ⟨report, good⟩ :=
      (keepsProtocol_of_build built Filter.off).fine apart 8 Instant.zero result runs
    exact ⟨simulation, result, report, built, several, apart, runs, good⟩

end Simulation

end Rally
