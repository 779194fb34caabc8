import Rally.Player
import Rally.Proofs.Pool.RunVerdict
import Rally.Proofs.Threads.StepFailures
/-!
# Messages find their way

A simulation that was built never loses a message for a reason of its own. What a rank dispatches came over a
link that is there, and is for a component that the rank owns; what a thread posts is for a rank whose thread
still takes parcels; and what a hook sends is handed over, since its component is in its place behind the call.
So no run ends with an error about a message that went astray.
-/

namespace Rally

/-- Whether an error tells that a message lost its way between ranks. -/
def RunError.IsLost : RunError → Prop
  | .misrouted _ _ | .unknownRank _ => True
  | _ => False

variable {C : Type}

namespace Rank

/-- Hands the messages of the hook of a position to the links. Where there are none, or where there is no
component, nothing happens. -/
def handOver (id : ComponentId) (sends : List (PortId × Message)) (rank : Rank C) :
    Rank C × Option Halt :=
  if sends.isEmpty then (rank, none)
  else
    match rank.slot? id with
    | none => (rank, none)
    | some slot => flush slot sends rank

/-- The number of messages that a rank ever scheduled or laid out. -/
def emitted (rank : Rank C) : Nat := rank.pending.entered + rank.shipped

/-- What is known about the messages of a hook: to hand them over does not miss the component, and unless it
fails, all of them are scheduled or laid out. -/
structure HandsOver (rank : Rank C) (id : ComponentId) (slot : Slot C) (reaction : Reaction C) :
    Prop where
  /-- The component is in its place behind the call. -/
  inPlace : ((rank.absorb id slot reaction).slot? id).isSome
  /-- So its messages are handed to the links. -/
  flushed : (rank.absorb id slot reaction).handOver id reaction.sends =
    flush slot reaction.sends (rank.absorb id slot reaction)
  /-- None of them is dropped. -/
  whole : (flush slot reaction.sends (rank.absorb id slot reaction)).2 = none →
    (flush slot reaction.sends (rank.absorb id slot reaction)).1.emitted =
      rank.emitted + reaction.sends.length

/-- How messages are handed to links does not depend on the state of a component. -/
theorem flush_withComponent (slot : Slot C) (component : C) (sends : List (PortId × Message))
    (rank : Rank C) : flush { slot with component } sends rank = flush slot sends rank := by
  induction sends generalizing rank with
  | nil => rfl
  | cons first rest ih =>
    obtain ⟨port, message⟩ := first
    have same : ({ slot with component } : Slot C).binding? port = slot.binding? port := rfl
    rw [flush, flush, same]
    cases slot.binding? port with
    | none => rfl
    | some binding => exact ih _

/-- A message that is handed to a link is scheduled or laid out. -/
theorem emitted_send (rank : Rank C) (binding : Binding) (message : Message) :
    (rank.send binding message).emitted = rank.emitted + 1 := by
  by_cases here : (rank.receiver (delivery binding message)).rank = rank.id
  · rw [send_of_eq here, emitted, EventSet.entered_add, emitted]
    exact Nat.add_right_comm _ 1 _
  · rw [send_of_ne here]
    rfl

/-- Where all messages of a hook are on configured ports, all of them are. -/
theorem emitted_flush {slot : Slot C} {sends : List (PortId × Message)} {rank : Rank C}
    (calm : (flush slot sends rank).2 = none) :
    (flush slot sends rank).1.emitted = rank.emitted + sends.length := by
  induction sends generalizing rank with
  | nil => rfl
  | cons first rest ih =>
    obtain ⟨port, message⟩ := first
    rw [flush] at calm ⊢
    cases bound : slot.binding? port with
    | none =>
      rw [bound] at calm
      cases calm
    | some binding =>
      rw [bound] at calm
      simp only
      rw [ih calm, emitted_send, List.length_cons, Nat.add_assoc, Nat.add_comm 1]

/-- The messages of a hook are handed over. -/
theorem handsOver {rank : Rank C} {id : ComponentId} {slot : Slot C}
    (owned : rank.slot? id = some slot) (reaction : Reaction C) : rank.HandsOver id slot reaction := by
  have there := slot?_absorb reaction owned
  refine ⟨by rw [there]; rfl, ?_, emitted_flush⟩
  rw [handOver, there]
  cases sends : reaction.sends with
  | nil => rfl
  | cons => exact flush_withComponent slot reaction.component _ _

/-- Whether an event that a rank takes is at the end of a link that is there, for a component of the rank. -/
structure Places (rank : Rank C) (event : Scheduled Delivery) : Prop where
  /-- The link is there. -/
  link : event.payload.link < rank.links.size
  /-- Its messages are counted. -/
  traffic : event.payload.link < rank.traffic.size
  /-- The component has a place. -/
  component : (rank.receiver event.payload).component < rank.slots.size
  /-- The rank owns it. -/
  owned : ∃ slot, rank.slot? (rank.receiver event.payload).component = some slot
  /-- The end of the link is placed on the rank. -/
  here : (rank.receiver event.payload).rank = rank.id

end Rank

variable [Component C] {n : Nat} {plan : Plan n} {links : Array Link}

/-- A call fails for no reason that is about lost messages. -/
theorem Thread.Fails.not_isLost {thread : Thread C} {halt : Halt} (fails : thread.Fails plan halt)
    (id : RankId) : ¬ (Worker.errorOf id halt).IsLost := by
  cases fails with
  | setup before fails => cases fails <;> exact not_false
  | dispatch before turn fails => cases fails <;> exact not_false

/-- Whether neither the failure of a rank nor the end of its thread is about a lost message. -/
structure Thread.Sighted (thread : Thread C) : Prop where
  /-- The rank is not failed for one. -/
  failure : ∀ error, thread.worker.failure = some error → ¬ error.IsLost
  /-- The thread does not end with such an error. -/
  ended : ∀ error, thread.phase = .ended (.error (.failed error)) → ¬ error.IsLost

/-- A step does not lose a message. -/
theorem Thread.Fares.sighted {thread next : Thread C} (fares : thread.Fares plan next)
    (sighted : thread.Sighted) : next.Sighted := by
  -- Only a call that fails, and the end of all ranks, tell of an error.
  have kept (failure : next.worker.failure = thread.worker.failure) (error : RunError)
      (failed : next.worker.failure = some error) : ¬ error.IsLost :=
    sighted.failure error (failure ▸ failed)
  cases fares with
  | @halts halt fails alone among =>
    have plain := fails.not_isLost thread.rank.id
    cases single : plan.alone with
    | true =>
      obtain ⟨phase, failure⟩ := alone single
      refine ⟨kept failure, fun error ended => ?_⟩
      cases phase.symm.trans ended
      exact plain
    | false =>
      obtain ⟨phase, failure⟩ := among single
      refine ⟨fun error failed => ?_, fun error ended => ?_⟩
      · obtain rfl := Option.some.inj (failure.symm.trans failed)
        exact plain
      · rw [ended] at phase
        rcases phase with same | same <;> cases same
  | breaks _ phase failure =>
    exact ⟨kept failure, fun error ended => by cases phase.symm.trans ended⟩
  | aborts _ _ _ phase failure =>
    refine ⟨kept failure, fun error ended => ?_⟩
    cases phase.symm.trans ended
    cases failed : thread.worker.failure with
    | none => exact not_false
    | some error => exact sighted.failure error failed
  | proceeds _ _ _ phase failure =>
    exact ⟨kept failure, fun error ended => by cases phase.symm.trans ended⟩
  | calm _ _ _ goes failure => exact ⟨kept failure, fun error ended => absurd ended (goes _)⟩

namespace System

variable {system : System C n} {index : Fin n} {first : Fin n → Rank C}

/-- What is known about the messages of a run. -/
structure Routes (plan : Plan n) (system : System C n) : Prop where
  /-- An event that a thread takes is for a component of its rank. -/
  taken : ∀ index event pending, (system.threads index).phase = .dispatching →
    (system.threads index).rank.turn (plan.bound (system.threads index).start)
      (plan.byVote (system.threads index).round) = .ok (event, pending) →
        (system.threads index).rank.Places event
  /-- A parcel that a thread posts is for a rank whose thread has not left its rounds. -/
  posted : ∀ index parcel rest, (system.threads index).phase = .posting (parcel :: rest) →
    ∃ target, plan.index? parcel.target = some target ∧ plan.ids target = parcel.target ∧
      ¬ (system.threads target).phase.isOver
  /-- What a setup hook sends is handed over. -/
  started : ∀ index id rest slot, (system.threads index).phase = .starting (id :: rest) →
    (system.threads index).rank.slot? id = some slot →
      (system.threads index).rank.HandsOver id slot
        (Component.setup slot.component ((system.threads index).rank.context slot))
  /-- So is what a component sends that handles a message. -/
  handled : ∀ index event pending slot, (system.threads index).phase = .dispatching →
    (system.threads index).rank.turn (plan.bound (system.threads index).start)
      (plan.byVote (system.threads index).round) = .ok (event, pending) →
    (system.threads index).rank.slot?
      ((system.threads index).rank.receiver event.payload).component = some slot →
        ((system.threads index).rank.take event pending).HandsOver
          ((system.threads index).rank.receiver event.payload).component slot
          ((system.threads index).rank.answer event slot)
  /-- No rank is failed for a message that lost its way, and no thread ends with such an error. -/
  sighted : ∀ index, (system.threads index).Sighted

/-- An event that a thread takes is for a component of its rank. -/
theorem Kept.places (kept : system.Kept plan links first) {event : Scheduled Delivery}
    {pending : EventSet Delivery}
    (turn : (system.threads index).rank.turn (plan.bound (system.threads index).start)
      (plan.byVote (system.threads index).round) = .ok (event, pending)) :
    (system.threads index).rank.Places event := by
  have wired := kept.steady.wired
  have sound := (kept.steady.threads index).timed.sound
  have waits := kept.flowing.addressed.pending index event (sound.first_of_pop (Rank.turn_ok turn).1).1
  have link : event.payload.link < (system.threads index).rank.links.size := by
    rw [wired.links index]
    exact waits.known
  have here : ((system.threads index).rank.receiver event.payload).rank =
      (system.threads index).rank.id := by
    rw [Rank.receiver, Rank.link, wired.links index, wired.ids index]
    exact waits.here
  obtain ⟨slot, owned⟩ := (wired.wired index).owned _ _ link here
  refine ⟨link, ?_, Rank.lt_size_of_slot? owned, ⟨slot, owned⟩, here⟩
  have counted := congrArg List.length (kept.counted index)
  rw [tallied, List.length_mapIdx, Array.length_toList, Array.length_toList] at counted
  rw [counted]
  exact waits.known

/-- A rank owns the receiver of the event that it takes next. -/
theorem Kept.receives (kept : system.Kept plan links first) (index : Fin n) :
    (system.threads index).Receives plan :=
  fun _ _ _ turn => (kept.places turn).owned

/-- A parcel that a thread posts next is for a rank that is there. -/
theorem Kept.reaches (kept : system.Kept plan links first) (covers : plan.Covers links)
    (index : Fin n) : (system.threads index).Reaches plan := by
  intro parcel rest posting
  have unsent : parcel ∈ (system.threads index).unsent := by
    rw [Thread.unsent, posting]
    exact List.mem_append_left _ List.mem_cons_self
  have goal := (kept.flowing.addressed.unsent index parcel unsent).goal
  obtain ⟨target, same⟩ := covers.placed_at goal.known parcel.delivery.arrival
  rw [goal.here] at same
  obtain ⟨found, known⟩ := @index?_of_contains _ plan _
    (List.contains_iff_mem.mpr (List.mem_ofFn.mpr ⟨target, same⟩))
  rw [known]
  exact Option.some_ne_none _

omit [Component C] in
/-- While a thread posts parcels, none has left its rounds. -/
theorem Regular.not_isOver_of_posting (regular : system.Regular plan) {rest : List Parcel}
    (posting : (system.threads index).phase = .posting rest) (other : Fin n) :
    ¬ (system.threads other).phase.isOver := by
  intro gone
  have behind := regular.round_le gone index
  have sync := regular.lockstep.synchronous
  have mine := (sync index).epoch_eq (by rw [posting]; exact id)
  have theirs := (sync other).epoch_eq (Phase.not_isWaiting_of_isOver gone)
  rw [Thread.epoch, posting] at mine
  rw [Thread.epoch, Phase.lag_of_isOver gone] at theirs
  simp only [Phase.lag] at mine
  omega

end System

namespace Simulation

variable {registry : Registry C} {options : Options} {topology : Topology}
  {clock moment : Instant} {journal : Journal} {simulation : Simulation C}
  {filter : Filter} {fuel : Nat} {result : RunResult C}

section Exec

variable (built : (build registry options topology clock journal).2 = .ok simulation)
  {schedule : List (Fin simulation.ranks.length)} {system : System C simulation.ranks.length}
  (reached : (simulation.launch filter).exec simulation.plan schedule = some system)

include built reached

/-- In every run each thread is where its next step calls a hook that fails, or goes on. -/
theorem fares_of_exec {index : Fin simulation.ranks.length} {next : Thread C}
    {effect : Effect simulation.ranks.length}
    (stepped : (system.threads index).step simulation.plan (system.view index) = some (next, effect)) :
    (system.threads index).Fares simulation.plan next := by
  obtain ⟨assembly, realizes⟩ := realizes_of_build built
  have kept := kept_of_exec built realizes reached
  exact Thread.fares_of_step (kept.receives index) (kept.reaches realizes.covers index) stepped

/-- In every run no rank is failed for a lost message. -/
theorem sighted_of_exec (index : Fin simulation.ranks.length) : (system.threads index).Sighted := by
  revert index
  refine System.exec_induction (P := fun system => ∀ index, (system.threads index).Sighted)
    (fun index => ⟨fun error failed => (by cases failed), fun error ended => (by cases ended)⟩)
    (fun turns former latter index arrives before stepped => ?_) reached
  obtain ⟨⟨thread, effect⟩, moved, rfl⟩ := Option.map_eq_some_iff.mp stepped
  exact System.forall_withThread (P := fun _ thread => thread.Sighted)
    ((fares_of_exec built arrives moved).sighted (before index)) before

/-- In every run of a simulation that was built, messages find their way. -/
theorem routes_of_exec : system.Routes simulation.plan := by
  obtain ⟨assembly, realizes⟩ := realizes_of_build built
  have kept := kept_of_exec built realizes reached
  refine ⟨fun index event pending _ turn => kept.places turn, fun index parcel rest posting => ?_,
    fun index id rest slot _ owned => Rank.handsOver owned _,
    fun index event pending slot _ _ owned => ?_, sighted_of_exec built reached⟩
  swap
  · exact @Rank.handsOver _ ((system.threads index).rank.take event pending) _ _ owned _
  obtain ⟨target, found⟩ :=
    Option.ne_none_iff_exists'.mp (kept.reaches realizes.covers index parcel rest posting)
  refine ⟨target, found, System.ids_of_index? found, ?_⟩
  cases alone : simulation.plan.alone with
  | true =>
    -- A single thread posts nothing.
    have phases := (solo_of_exec built alone realizes reached).phases index
    rw [posting] at phases
    exact phases.elim False.elim False.elim
  | false =>
    have several : 2 ≤ simulation.ranks.length := by
      rw [Plan.alone, decide_eq_false_iff_not] at alone
      omega
    exact (regular_of_exec built several reached).1.not_isOver_of_posting posting target

end Exec

/-- No run ends with an error about a lost message: in each of its states, messages find their way. -/
theorem messages_arrive (built : (build registry options topology clock journal).2 = .ok simulation)
    (filter : Filter) :
    (∀ schedule system, (simulation.launch filter).exec simulation.plan schedule = some system →
      system.Routes simulation.plan) ∧
    ∀ fuel moment result, simulation.run fuel filter moment = some result →
      ∀ error, result.outcome = .error (.failed error) → ¬ error.IsLost := by
  refine ⟨fun schedule system reached => routes_of_exec built reached,
    fun fuel moment result runs error fails => ?_⟩
  obtain ⟨schedule, system, reached, complete, ended⟩ := error_of_run built runs fails
  obtain ⟨index, halt, phase, same⟩ := complete.exists_error ended
  cases halt with
  | failed problem =>
    obtain rfl : problem = error := same
    exact (sighted_of_exec built reached index).ended problem phase
  | panicked panic =>
    obtain rfl : RunError.rankPanicked _ panic.message = error := same
    exact not_false

end Simulation

/-- The error that a run ends with. -/
def RunResult.error? (result : RunResult C) : Option RunError :=
  match result.outcome with
  | .error (.failed error) => some error
  | _ => none

/-- What is seen of a simulation that is built and run, where that ends with an error. -/
theorem Simulation.exists_error {registry : Registry C} {options : Options} {topology : Topology}
    {clock moment : Instant} {journal : Journal} {filter : Filter} {fuel : Nat} {error : RunError}
    {count : Nat} (sees : ((build registry options topology clock journal).2.toOption.bind fun simulation =>
      (simulation.run fuel filter moment).bind fun result =>
        result.error?.map fun error => (simulation.ranks.length, error)) = some (count, error)) :
    ∃ simulation result, (build registry options topology clock journal).2 = .ok simulation ∧
      simulation.ranks.length = count ∧ simulation.run fuel filter moment = some result ∧
      result.outcome = .error (.failed error) := by
  obtain ⟨simulation, result, built, runs, seen⟩ := exists_result sees
  obtain ⟨other, fails, same⟩ := Option.map_eq_some_iff.mp seen
  obtain ⟨ranks, rfl⟩ := Prod.mk.inj same
  refine ⟨simulation, result, built, ranks, runs, ?_⟩
  rw [RunResult.error?] at fails
  split at fails
  · next told =>
    rw [told, Option.some.inj fails]
  · cases fails

/-- Two players on ranks that send on ports joined to each other, where none receives. -/
def Topology.clash (first second : RankId) : Topology :=
  ((({} : Topology).addPlayer "ping" .initiator first 1).addPlayer "pong" .responder second 1)
    |>.addLink "outputs" Binary64.one ⟨"ping", "output"⟩ ⟨"pong", "output"⟩
    |>.addLink "inputs" Binary64.one ⟨"ping", "input"⟩ ⟨"pong", "input"⟩

namespace Simulation

/-- Two such players on a rank each: the run fails where a message arrives at a port that receives none, and
messages find their way before. -/
theorem messages_arrive_clash :
    ∃ (simulation : Simulation Player) (result : RunResult Player)
      (schedule : List (Fin simulation.ranks.length)) (system : System Player simulation.ranks.length),
      (build (Registry.builtin id) {} (.clash 0 1) Instant.zero ⟨Filter.off, #[]⟩).2 = .ok simulation ∧
      simulation.ranks.length = 2 ∧ simulation.run 8 Filter.off Instant.zero = some result ∧
      result.outcome = .error (.failed (.componentFault "pong" (.noHandler "output"))) ∧
      (simulation.launch Filter.off).exec simulation.plan schedule = some system ∧
      system.Complete ∧ system.Routes simulation.plan ∧
      ¬ (RunError.componentFault "pong" (.noHandler "output")).IsLost := by
  obtain ⟨simulation, result, built, two, runs, outcome⟩ := @exists_error _ _
    (Registry.builtin id : Registry Player) {} (.clash 0 1) Instant.zero Instant.zero
    ⟨Filter.off, #[]⟩ Filter.off 8 (.componentFault "pong" (.noHandler "output")) 2 (by decide +kernel)
  obtain ⟨routes, errors⟩ := messages_arrive built Filter.off
  obtain ⟨schedule, system, reached, complete, -⟩ := error_of_run built runs outcome
  exact ⟨simulation, result, schedule, system, built, two, runs, outcome, reached, complete,
    routes schedule system reached, errors 8 Instant.zero result runs _ outcome⟩

end Simulation

end Rally
