import Rally.Proofs.Threads.RankDeeds
import Rally.Proofs.Time.Order
/-!
# Limits

However limits are combined, one that forbids an event forbids every event with a higher number that is
due no earlier. The choices about a run add up: what one of them forbids is forbidden. Nothing but the
choice of the next event depends on the limit of a rank, so that hooks do the same under any limit.
-/

namespace Rally

namespace Limit

/-- What a limit forbids, it forbids for higher numbers and at later times as well. -/
theorem applies_mono (limit : Limit) {number more : Nat} {time later : Instant} (fewer : number ≤ more)
    (before : time ≤ later) (applies : limit.applies number time = true) :
    limit.applies more later = true := by
  induction limit with
  | unlimited => cases applies
  | events count =>
    exact decide_eq_true (Nat.lt_of_lt_of_le (of_decide_eq_true applies) fewer)
  | instant last => exact decide_eq_true (lt_of_lt_of_le (of_decide_eq_true applies) before)
  | both left right first second =>
    obtain ⟨one, other⟩ := Bool.and_eq_true_iff.mp applies
    exact Bool.and_eq_true_iff.mpr ⟨first one, second other⟩
  | either left right first second =>
    exact Bool.or_eq_true_iff.mpr ((Bool.or_eq_true_iff.mp applies).imp first second)

/-- A limit that was added to another one forbids what one of them does. -/
theorem applies_add (limit more : Limit) (number : Nat) (time : Instant) :
    (limit.add more).applies number time =
      (limit.applies number time || more.applies number time) := by
  cases more with
  | unlimited => exact (Bool.or_false _).symm
  | _ =>
    cases limit with
    | unlimited => exact (Bool.false_or _).symm
    | _ => rfl

end Limit

namespace Options

/-- A choice that limits a run. -/
inductive Step where
  /-- To bound the number of messages. -/
  | maxEvents (count : Nat)
  /-- To bound the simulated time. -/
  | maxTime (last : Instant)
  /-- To add any limit. -/
  | limited (limit : Limit)
  deriving DecidableEq

/-- The limit that a choice adds. -/
def Step.limit : Step → Limit
  | maxEvents count => .events count
  | maxTime last => .instant last
  | limited limit => limit

/-- The choices behind one more. -/
def choose (options : Options) : Step → Options
  | .maxEvents count => options.maxEvents count
  | .maxTime last => options.maxTime last
  | .limited limit => options.limited limit

/-- The choices behind some more. -/
def chooseAll (options : Options) (steps : List Step) : Options := steps.foldl choose options

/-- A choice adds its limit, and changes nothing else. -/
theorem choose_eq (options : Options) (step : Step) :
    options.choose step = { options with limit := options.limit.add step.limit } := by
  cases step <;> rfl

/-- Whatever the order of the choices, they forbid what one of them does. -/
theorem applies_chooseAll (options : Options) (steps : List Step) (number : Nat) (time : Instant) :
    (options.chooseAll steps).limit.applies number time = true ↔
      options.limit.applies number time = true ∨
        ∃ step ∈ steps, step.limit.applies number time = true := by
  induction steps generalizing options with
  | nil => simp [chooseAll]
  | cons step rest ih =>
    rw [chooseAll, List.foldl_cons]
    refine (ih (options.choose step)).trans ?_
    rw [choose_eq, Limit.applies_add, Bool.or_eq_true_iff, or_assoc]
    simp only [List.mem_cons, exists_eq_or_imp]

/-- Choices about limits change nothing but the limit. -/
theorem chooseAll_eq (options : Options) (steps : List Step) :
    options.chooseAll steps = { options with limit := (options.chooseAll steps).limit } := by
  induction steps generalizing options with
  | nil => rfl
  | cons step rest ih =>
    rw [chooseAll, List.foldl_cons]
    refine (ih (options.choose step)).trans ?_
    rw [choose_eq]
    rfl

end Options

variable {C : Type}

namespace Rank

/-- A rank under a limit of its own. -/
def limitedTo (limit : Limit) (rank : Rank C) : Rank C := { rank with limit }

/-- Handing a message to a link does not depend on the limit. -/
theorem send_limitedTo (limit : Limit) (rank : Rank C) (binding : Binding) (message : Message) :
    (rank.limitedTo limit).send binding message = (rank.send binding message).limitedTo limit := by
  by_cases here : (rank.receiver (delivery binding message)).rank = rank.id
  · rw [send_of_eq here]
    exact send_of_eq here
  · rw [send_of_ne here]
    exact send_of_ne here

/-- Handing messages to links does not depend on the limit. -/
theorem flush_limitedTo (limit : Limit) (slot : Slot C) (sends : List (PortId × Message))
    (rank : Rank C) :
    flush slot sends (rank.limitedTo limit) =
      ((flush slot sends rank).1.limitedTo limit, (flush slot sends rank).2) := by
  induction sends generalizing rank with
  | nil => rfl
  | cons first rest ih =>
    obtain ⟨port, message⟩ := first
    simp only [flush]
    cases slot.binding? port with
    | none => rfl
    | some binding =>
      simp only [send_limitedTo]
      exact ih (rank.send binding message)

/-- Taking over what a hook did does not depend on the limit. -/
theorem absorb_limitedTo (limit : Limit) (rank : Rank C) (id : ComponentId) (slot : Slot C)
    (reaction : Reaction C) :
    (rank.limitedTo limit).absorb id slot reaction = (rank.absorb id slot reaction).limitedTo limit :=
  rfl

/-- What the hooks of a component know does not depend on the limit. -/
theorem context_limitedTo (limit : Limit) (rank : Rank C) (slot : Slot C) :
    (rank.limitedTo limit).context slot = rank.context slot :=
  rfl

section Hooks

variable [Component C]

/-- A setup hook does not depend on the limit. -/
theorem setup_limitedTo (limit : Limit) (id : ComponentId) (rank : Rank C) :
    setup id (rank.limitedTo limit) = ((setup id rank).1.limitedTo limit, (setup id rank).2) := by
  have same : (rank.limitedTo limit).slot? id = rank.slot? id := rfl
  simp only [setup, same]
  cases rank.slot? id with
  | none => rfl
  | some slot =>
    simp only [context_limitedTo, absorb_limitedTo]
    split
    · rfl
    · exact flush_limitedTo ..

/-- The setup hooks do not depend on the limit. -/
theorem setupAll_limitedTo (limit : Limit) (ids : List ComponentId) (rank : Rank C) :
    setupAll ids (rank.limitedTo limit) =
      ((setupAll ids rank).1.limitedTo limit, (setupAll ids rank).2) := by
  induction ids generalizing rank with
  | nil => rfl
  | cons id rest ih =>
    simp only [setupAll, setup_limitedTo]
    cases setup id rank with
    | mk behind halt =>
      cases halt with
      | none => exact ih behind
      | some halt => rfl

/-- The start of a rank does not depend on the limit. -/
theorem start_limitedTo (limit : Limit) (rank : Rank C) :
    (rank.limitedTo limit).start = (rank.start.1.limitedTo limit, rank.start.2) :=
  setupAll_limitedTo limit _ { rank with now := Instant.zero }

/-- A component that handles a message does not depend on the limit. -/
theorem deliver_limitedTo (limit : Limit) (rank : Rank C) (id : ComponentId) (slot : Slot C)
    (port : PortId) (message : Message) :
    (rank.limitedTo limit).deliver id slot port message =
      ((rank.deliver id slot port message).1.limitedTo limit,
        (rank.deliver id slot port message).2) := by
  simp only [deliver, context_limitedTo, absorb_limitedTo]
  split
  · split
    · exact flush_limitedTo ..
    · rfl
    · rfl
  · rfl

/-- An event is dispatched without regard to the limit. -/
theorem dispatch_limitedTo (limit : Limit) (event : Scheduled Delivery) (pending : EventSet Delivery)
    (rank : Rank C) :
    dispatch event { rank.limitedTo limit with pending } =
      ((dispatch event { rank with pending }).1.limitedTo limit,
        (dispatch event { rank with pending }).2) := by
  have same : (rank.limitedTo limit).slot? ((rank.limitedTo limit).receiver event.payload).component =
      rank.slot? (rank.receiver event.payload).component := rfl
  rw [dispatch_eq, dispatch_eq, same]
  cases rank.slot? (rank.receiver event.payload).component with
  | none => rfl
  | some slot => exact deliver_limitedTo limit (rank.take event pending) ..

/-- A finish hook does not depend on the limit. -/
theorem finishOne_limitedTo (limit : Limit) (id : ComponentId) (rank : Rank C) :
    finishOne id (rank.limitedTo limit) =
      ((finishOne id rank).1.limitedTo limit, (finishOne id rank).2) := by
  have same : (rank.limitedTo limit).slot? id = rank.slot? id := rfl
  simp only [finishOne, same]
  cases rank.slot? id with
  | none => rfl
  | some slot =>
    simp only [context_limitedTo, absorb_limitedTo]
    split
    · rfl
    · by_cases quiet : (Component.finish slot.component (rank.context slot)).sends.isEmpty = true
      · simp only [quiet, if_true]
      · simp only [quiet]
        rfl

/-- The finish hooks do not depend on the limit. -/
theorem finish_limitedTo (limit : Limit) (rank : Rank C) :
    (rank.limitedTo limit).finish = (rank.finish.1.limitedTo limit, rank.finish.2) := by
  have all (ids : List ComponentId) (rank : Rank C) : finishAll ids (rank.limitedTo limit) =
      ((finishAll ids rank).1.limitedTo limit, (finishAll ids rank).2) := by
    induction ids generalizing rank with
    | nil => rfl
    | cons id rest ih =>
      simp only [finishAll, finishOne_limitedTo]
      cases finishOne id rank with
      | mk behind halt =>
        cases halt with
        | none => exact ih behind
        | some halt => rfl
  exact all (List.range rank.slots.size) rank

end Hooks

end Rank

namespace Simulation

/-- A simulation under a limit of its own. -/
def limitedTo (limit : Limit) (simulation : Simulation C) : Simulation C :=
  { simulation with ranks := simulation.ranks.map (Rank.limitedTo limit), limit }

/-- A topology is built under any limit, or fails to be built, as it is without it. -/
theorem build_limitedTo (registry : Registry C) (options : Options) (limit : Limit)
    (topology : Topology) (clock : Instant) (journal : Journal) :
    build registry { options with limit } topology clock journal =
      ((build registry options topology clock journal).1,
        (build registry options topology clock journal).2.map (limitedTo limit)) := by
  simp only [build]
  split
  · rfl
  · split
    · rfl
    · simp only [Except.map, limitedTo, List.map_map]
      rfl

end Simulation

end Rally
