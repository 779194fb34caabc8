import Rally.Proofs.Threads.RankDeeds
/-!
# Calls of hooks that fail

A call of a hook fails where the hook breaks off or returns a violation of the protocol, where a message
arrives at a port that receives none, and where the hook sends on a port that is not configured. A rank halts
behind such a call, and no other one, for the reason for which the call fails.
-/

namespace Rally

namespace Slot

variable {C : Type} (slot : Slot C)

/-- The halt of a rank for a violation by one of its components. -/
def fault (violation : Violation) : Halt := .failed (.componentFault slot.name violation)

/-- Whether a hook that sends messages does so on a port that is not configured, and not on another such
port before. -/
def Strays (sends : List (PortId × Message)) (port : PortId) : Prop :=
  ∃ former message latter, sends = former ++ (port, message) :: latter ∧
    (∀ send ∈ former, slot.binding? send.1 ≠ none) ∧ slot.binding? port = none

variable {slot}

/-- The first one of some messages alone decides where its port is not configured. -/
theorem strays_cons_of_none {port other : PortId} {message : Message}
    {rest : List (PortId × Message)} (unbound : slot.binding? port = none) :
    slot.Strays ((port, message) :: rest) other ↔ other = port := by
  refine ⟨?_, fun same => ⟨[], message, rest, by rw [same]; rfl, fun _ none =>
    absurd none List.not_mem_nil, by rw [same]; exact unbound⟩⟩
  rintro ⟨former, there, latter, sends, bound, -⟩
  cases former with
  | nil => exact (Prod.mk.inj (List.cons.inj sends).1).1.symm
  | cons first former =>
    obtain rfl := (List.cons.inj sends).1
    exact absurd unbound (bound _ List.mem_cons_self)

/-- Otherwise those behind it do. -/
theorem strays_cons_of_some {port other : PortId} {message : Message} {binding : Binding}
    {rest : List (PortId × Message)} (bound : slot.binding? port = some binding) :
    slot.Strays ((port, message) :: rest) other ↔ slot.Strays rest other := by
  constructor
  · rintro ⟨former, there, latter, sends, known, unbound⟩
    cases former with
    | nil =>
      obtain rfl := (Prod.mk.inj (List.cons.inj sends).1).1
      cases bound.symm.trans unbound
    | cons first former =>
      exact ⟨former, there, latter, (List.cons.inj sends).2,
        fun send inside => known send (List.mem_cons_of_mem _ inside), unbound⟩
  · rintro ⟨former, there, latter, rfl, known, unbound⟩
    refine ⟨(port, message) :: former, there, latter, rfl, fun send inside => ?_, unbound⟩
    rcases List.mem_cons.mp inside with rfl | inside
    · rw [bound]
      exact Option.some_ne_none _
    · exact known send inside

end Slot

namespace Rank

variable {C : Type}

/-- To hand messages to links fails at the first one on a port that is not configured. -/
theorem flush_fails_iff {slot : Slot C} {sends : List (PortId × Message)} {rank : Rank C}
    {halt : Halt} : (flush slot sends rank).2 = some halt ↔
      ∃ port, slot.Strays sends port ∧ halt = slot.fault (.unconfiguredPort (slot.portName port)) := by
  induction sends generalizing rank with
  | nil =>
    refine ⟨fun fails => (by cases fails), ?_⟩
    rintro ⟨port, ⟨former, message, latter, sends, -⟩, -⟩
    cases former <;> cases sends
  | cons first rest ih =>
    obtain ⟨port, message⟩ := first
    rw [flush]
    cases bound : slot.binding? port with
    | none =>
      simp only [Slot.strays_cons_of_none bound, exists_eq_left, Option.some.injEq]
      exact eq_comm
    | some binding =>
      simp only [Slot.strays_cons_of_some bound]
      exact ih

variable [Component C]

/-- How the setup hook of a position fails. -/
inductive SetupFails (rank : Rank C) (id : ComponentId) : Halt → Prop where
  /-- It breaks off. -/
  | panicked {slot : Slot C} {panic : Panic} (owned : rank.slot? id = some slot)
      (breaks : (Component.setup slot.component (rank.context slot)).outcome = .panicked panic) :
      SetupFails rank id (.panicked panic)
  /-- It sends on a port that is not configured. -/
  | unconfigured {slot : Slot C} {port : PortId} (owned : rank.slot? id = some slot)
      (returns : ∀ panic,
        (Component.setup slot.component (rank.context slot)).outcome ≠ .panicked panic)
      (strays : slot.Strays (Component.setup slot.component (rank.context slot)).sends port) :
      SetupFails rank id (slot.fault (.unconfiguredPort (slot.portName port)))

/-- The answer of the receiver of an event. -/
def answer (rank : Rank C) (event : Scheduled Delivery) (slot : Slot C) : Reaction C :=
  Component.handle slot.component ⟨slot.name, rank.id, event.time⟩ (rank.receiver event.payload).port
    event.payload.message

/-- How the dispatch of an event fails. -/
inductive DispatchFails (rank : Rank C) (event : Scheduled Delivery) : Halt → Prop where
  /-- No messages are received at the port. -/
  | noHandler {slot : Slot C}
      (owned : rank.slot? (rank.receiver event.payload).component = some slot)
      (deaf : slot.receives (rank.receiver event.payload).port = false) :
      DispatchFails rank event
        (slot.fault (.noHandler (slot.portName (rank.receiver event.payload).port)))
  /-- The hook returns a violation. -/
  | violated {slot : Slot C} {violation : Violation}
      (owned : rank.slot? (rank.receiver event.payload).component = some slot)
      (receives : slot.receives (rank.receiver event.payload).port = true)
      (violates : (rank.answer event slot).outcome = .violated violation) :
      DispatchFails rank event (slot.fault violation)
  /-- The hook breaks off. -/
  | panicked {slot : Slot C} {panic : Panic}
      (owned : rank.slot? (rank.receiver event.payload).component = some slot)
      (receives : slot.receives (rank.receiver event.payload).port = true)
      (breaks : (rank.answer event slot).outcome = .panicked panic) :
      DispatchFails rank event (.panicked panic)
  /-- The hook sends on a port that is not configured. -/
  | unconfigured {slot : Slot C} {port : PortId}
      (owned : rank.slot? (rank.receiver event.payload).component = some slot)
      (receives : slot.receives (rank.receiver event.payload).port = true)
      (returns : (rank.answer event slot).outcome = .completed)
      (strays : slot.Strays (rank.answer event slot).sends port) :
      DispatchFails rank event (slot.fault (.unconfiguredPort (slot.portName port)))

/-- Where the dispatch of an event fails, the rank owns its receiver. -/
theorem DispatchFails.owned {rank : Rank C} {event : Scheduled Delivery} {halt : Halt}
    (fails : rank.DispatchFails event halt) :
    ∃ slot, rank.slot? (rank.receiver event.payload).component = some slot := by
  cases fails with
  | noHandler owned | violated owned | panicked owned | unconfigured owned => exact ⟨_, owned⟩

/-- How the finish hook of a position fails: it breaks off. -/
def FinishFails (rank : Rank C) (id : ComponentId) (panic : Panic) : Prop :=
  ∃ slot, rank.slot? id = some slot ∧
    (Component.finish slot.component (rank.context slot)).outcome = .panicked panic

/-- A rank halts behind a setup hook just where this fails. -/
theorem setup_fails_iff {rank : Rank C} {id : ComponentId} {halt : Halt} :
    (rank.setup id).2 = some halt ↔ rank.SetupFails id halt := by
  constructor
  · intro fails
    rw [setup] at fails
    cases owned : rank.slot? id with
    | none =>
      rw [owned] at fails
      cases fails
    | some slot =>
      simp only [owned] at fails
      split at fails
      · next panic breaks =>
        cases fails
        exact .panicked owned breaks
      · next returns =>
        obtain ⟨port, strays, rfl⟩ := flush_fails_iff.mp fails
        exact .unconfigured owned returns strays
  · intro fails
    rw [setup]
    cases fails with
    | panicked owned breaks => simp only [owned, breaks]
    | unconfigured owned returns strays =>
      simp only [owned]
      exact flush_fails_iff.mpr ⟨_, strays, rfl⟩

/-- What becomes of an event behind the answer of its receiver. -/
theorem dispatch_answer {rank : Rank C} {event : Scheduled Delivery} {slot : Slot C}
    (owned : rank.slot? (rank.receiver event.payload).component = some slot)
    (pending : EventSet Delivery) :
    dispatch event { rank with pending } =
      let taken := rank.take event pending
      let absorbed := taken.absorb (rank.receiver event.payload).component slot (rank.answer event slot)
      if slot.receives (rank.receiver event.payload).port then
        match (rank.answer event slot).outcome with
        | .completed => flush slot (rank.answer event slot).sends absorbed
        | .violated violation => absorbed.fail slot violation
        | .panicked panic => (absorbed, some (.panicked panic))
      else taken.fail slot (.noHandler (slot.portName (rank.receiver event.payload).port)) := by
  rw [dispatch_eq, owned]
  rfl

/-- A rank that owns the receiver of an event halts behind it just where its dispatch fails. -/
theorem dispatch_fails_iff {rank : Rank C} {event : Scheduled Delivery} {pending : EventSet Delivery}
    {slot : Slot C} (owned : rank.slot? (rank.receiver event.payload).component = some slot)
    {halt : Halt} :
    (dispatch event { rank with pending }).2 = some halt ↔ rank.DispatchFails event halt := by
  constructor
  · intro fails
    rw [dispatch_answer owned] at fails
    cases receives : slot.receives (rank.receiver event.payload).port with
    | false =>
      simp only [receives, Bool.false_eq_true, if_false] at fails
      cases fails
      exact .noHandler owned receives
    | true =>
      simp only [receives, if_true] at fails
      cases outcome : (rank.answer event slot).outcome with
      | completed =>
        simp only [outcome] at fails
        obtain ⟨port, strays, rfl⟩ := flush_fails_iff.mp fails
        exact .unconfigured owned receives outcome strays
      | violated violation =>
        simp only [outcome] at fails
        cases fails
        exact .violated owned receives outcome
      | panicked panic =>
        simp only [outcome] at fails
        cases fails
        exact .panicked owned receives outcome
  · intro fails
    cases fails with
    | noHandler owned deaf =>
      simp only [dispatch_answer owned, deaf, Bool.false_eq_true, if_false]
      rfl
    | violated owned receives violates =>
      simp only [dispatch_answer owned, receives, violates, if_true]
      rfl
    | panicked owned receives breaks =>
      simp only [dispatch_answer owned, receives, breaks, if_true]
    | unconfigured owned receives returns strays =>
      simp only [dispatch_answer owned, receives, returns, if_true]
      exact flush_fails_iff.mpr ⟨_, strays, rfl⟩

/-- A setup hook fails for one reason alone. -/
theorem SetupFails.unique {rank : Rank C} {id : ComponentId} {halt other : Halt}
    (fails : rank.SetupFails id halt) (also : rank.SetupFails id other) : halt = other :=
  Option.some.inj ((setup_fails_iff.mpr fails).symm.trans (setup_fails_iff.mpr also))

/-- So does the dispatch of an event. -/
theorem DispatchFails.unique {rank : Rank C} {event : Scheduled Delivery} {halt other : Halt}
    (fails : rank.DispatchFails event halt) (also : rank.DispatchFails event other) :
    halt = other := by
  obtain ⟨slot, owned⟩ := fails.owned
  have halts {halt : Halt} (fails : rank.DispatchFails event halt) :
      (dispatch event { rank with pending := rank.pending }).2 = some halt :=
    (dispatch_fails_iff owned).mpr fails
  exact Option.some.inj ((halts fails).symm.trans (halts also))

/-- A rank halts behind a finish hook just where this fails. -/
theorem finishOne_fails_iff {rank : Rank C} {id : ComponentId} {panic : Panic} :
    (rank.finishOne id).2 = some (.panicked panic) ↔ rank.FinishFails id panic := by
  rw [finishOne]
  constructor
  · intro fails
    cases owned : rank.slot? id with
    | none =>
      rw [owned] at fails
      cases fails
    | some slot =>
      simp only [owned] at fails
      split at fails
      · next other breaks =>
        cases fails
        exact ⟨slot, owned, breaks⟩
      · split at fails <;> cases fails
  · rintro ⟨slot, owned, breaks⟩
    simp only [owned, breaks]

end Rank

end Rally
