import Rally.Proofs.Threads.Interleaving
import Rally.Proofs.Threads.WindowDeeds
/-!
# Threads on their own

Between two barriers a thread needs no other one: its steps are those of its rank in a run in which
the ranks act one after the other. So what a rank does in such a run, its thread does in some number
of steps, with the same parcels and the same deeds.
-/

namespace Rally

namespace Thread

variable {C : Type} {n : Nat} {plan : Plan n}

/-- A thread whose rank did something remembers it. -/
def acted (thread : Thread C) (rank : Rank C) (deeds : List Deed) : Thread C :=
  (thread.withRank rank).remember deeds

/-- A thread whose rank did nothing stays the same. -/
theorem acted_nil (thread : Thread C) : thread.acted thread.rank [] = thread := by
  simp only [acted, remember, withRank, rank, List.append_nil]

/-- A rank that does one thing after another does both. -/
theorem acted_acted (thread : Thread C) (middle last : Rank C) (deeds more : List Deed) :
    (thread.acted middle deeds).acted last more = thread.acted last (deeds ++ more) := by
  simp only [acted, remember, withRank, List.append_assoc]

/-- A thread behind the setup of its rank, which may have failed. -/
def opened (thread : Thread C) (called : Rank C × Option Halt) (deeds : List Deed) : Thread C :=
  match called with
  | (rank, none) => (thread.acted rank deeds).goTo .opening
  | (rank, some halt) =>
    ((thread.acted rank deeds).fail (Worker.errorOf rank.id halt)).goTo .opening

/-- The setup of a rank goes on behind its first hooks. -/
theorem opened_acted (thread : Thread C) (phase : Phase) (rank : Rank C) (deeds more : List Deed)
    (called : Rank C × Option Halt) :
    ((thread.acted rank deeds).goTo phase).opened called more =
      thread.opened called (deeds ++ more) := by
  obtain ⟨last, halt⟩ := called
  cases halt <;>
    simp only [opened, acted, goTo, remember, withRank, fail, List.append_assoc]

/-- A thread behind the messages that its rank dispatched. -/
def settled (alone : Bool) (thread : Thread C) (dispatched : Rank C × Except Halt Stop)
    (deeds : List Deed) : Thread C :=
  match dispatched with
  | (rank, .ok stop) => (thread.acted rank deeds).stopped alone stop
  | (rank, .error halt) => (thread.acted rank deeds).halted alone halt

/-- A rank goes on behind the first message that it dispatched. -/
theorem settled_acted (alone : Bool) (thread : Thread C) (rank : Rank C) (deeds more : List Deed)
    (dispatched : Rank C × Except Halt Stop) :
    (thread.acted rank deeds).settled alone dispatched more =
      thread.settled alone dispatched (deeds ++ more) := by
  obtain ⟨last, outcome⟩ := dispatched
  cases outcome <;> simp only [settled, acted_acted]

/-- A thread behind the end of its rank. -/
def closed (thread : Thread C) (reason : Termination) (called : Rank C × Option Halt) : Thread C :=
  (thread.withRank called.1).goTo
    (.ended (match called.2 with
      | none => .ok reason
      | some halt => .error halt))

variable [Component C]

/-- A thread makes some steps that neither depend on others nor affect them. -/
inductive Strides (plan : Plan n) : Thread C → Thread C → Nat → Prop where
  /-- No step. -/
  | refl (thread : Thread C) : Strides plan thread thread 0
  /-- A step in front of others. -/
  | before {first middle last : Thread C} {count : Nat}
      (step : ∀ view, first.step plan view = some (middle, .idle))
      (others : Strides plan middle last count) : Strides plan first last (count + 1)

/-- Steps in front of others. -/
theorem Strides.trans {first middle last : Thread C} {count more : Nat}
    (former : Strides plan first middle count) (latter : Strides plan middle last more) :
    Strides plan first last (count + more) := by
  induction former with
  | refl => rwa [Nat.zero_add]
  | before step _ ih =>
    rw [Nat.add_right_comm]
    exact .before step (ih latter)

/-- One step. -/
theorem Strides.single {first last : Thread C}
    (step : ∀ view, first.step plan view = some (last, .idle)) : Strides plan first last 1 :=
  .before step (.refl last)

/-- A thread among others calls the setup hooks of its rank and is to open a window, also where one
of the hooks fails. -/
theorem strides_setup (among : plan.alone = false) (rest : List ComponentId) (thread : Thread C)
    (phase : thread.phase = .starting rest) :
    ∃ count, Strides plan thread (thread.opened (Rank.setupAll rest thread.rank)
      (Rank.setupAllDeeds rest thread.rank)) (count + 1) := by
  induction rest generalizing thread with
  | nil =>
    refine ⟨0, .single fun view => ?_⟩
    simp only [step, phase, startNext, goTo, Rank.setupAll, Rank.setupAllDeeds, opened, acted,
      remember, withRank, rank, List.append_nil]
  | cons id rest ih =>
    cases called : thread.rank.setup id with
    | mk rank halt =>
      cases halt with
      | none =>
        have first : ∀ view, thread.step plan view =
            some ((thread.acted rank (thread.rank.setupDeeds id)).goTo (.starting rest), .idle) := by
          intro view
          simp only [step, phase, startNext, called]
          rfl
        obtain ⟨count, strides⟩ :=
          ih ((thread.acted rank (thread.rank.setupDeeds id)).goTo (.starting rest)) rfl
        rw [opened_acted] at strides
        refine ⟨count + 1, .before first ?_⟩
        simp only [Rank.setupAll, Rank.setupAllDeeds, called]
        exact strides
      | some halt =>
        refine ⟨0, .single fun view => ?_⟩
        simp only [step, phase, startNext, called, among, Rank.setupAll, Rank.setupAllDeeds,
          List.append_nil]
        rfl

/-- A thread dispatches what its rank dispatches, or makes as many steps as there is fuel. -/
theorem strides_dispatch {fuel : Nat} {thread : Thread C} (phase : thread.phase = .dispatching)
    {result : Option (Rank C × Except Halt Stop)}
    (runs : thread.rank.dispatchUntil (plan.bound thread.start) (plan.byVote thread.round) fuel =
      result) :
    match result with
    | none => ∃ last, Strides plan thread last fuel
    | some dispatched => ∃ count, Strides plan thread
        (thread.settled plan.alone dispatched (thread.rank.untilDeeds (plan.bound thread.start)
          (plan.byVote thread.round) fuel)) count := by
  induction fuel generalizing thread result with
  | zero =>
    cases runs
    exact ⟨thread, .refl thread⟩
  | succ fuel ih =>
    rw [Rank.dispatchUntil_succ] at runs
    rw [Rank.untilDeeds]
    cases turn : thread.rank.turn (plan.bound thread.start) (plan.byVote thread.round) with
    | error stop =>
      simp only [turn] at runs
      subst runs
      refine ⟨1, .single fun view => ?_⟩
      simp only [step, phase, dispatchNext, turn, settled, acted_nil]
    | ok taken =>
      obtain ⟨event, pending⟩ := taken
      simp only [turn] at runs
      simp only
      cases called : Rank.dispatch event { thread.rank with pending } with
      | mk rank halt =>
        simp only [called] at runs
        cases halt with
        | none =>
          have first : ∀ view, thread.step plan view =
              some (thread.acted rank (thread.rank.dispatchDeeds event pending), .idle) := by
            intro view
            simp only [step, phase, dispatchNext, turn, called]
            rfl
          have others := @ih (thread.acted rank (thread.rank.dispatchDeeds event pending)) phase
            result runs
          cases result with
          | none =>
            obtain ⟨last, strides⟩ := others
            exact ⟨last, .before first strides⟩
          | some dispatched =>
            obtain ⟨count, strides⟩ := others
            rw [settled_acted] at strides
            exact ⟨count + 1, .before first strides⟩
        | some halt =>
          subst runs
          refine ⟨1, .single fun view => ?_⟩
          simp only [step, phase, dispatchNext, turn, called, List.append_nil]
          rfl

/-- What becomes of the rank of a thread in the window that it is to open. -/
def advance (plan : Plan n) (fuel : Nat) (thread : Thread C) : Option (Worker C) :=
  thread.worker.advance fuel thread.start (plan.bound thread.start) (plan.byVote thread.round)

/-- The deeds of a rank in the window that its thread is to open. -/
def advanceDeeds (plan : Plan n) (fuel : Nat) (thread : Thread C) : List Deed :=
  thread.worker.advanceDeeds fuel thread.start (plan.bound thread.start) (plan.byVote thread.round)

/-- A thread behind a window: it posts what its rank laid out, unless the rank failed. -/
def behindWindow (worker : Worker C) (deeds : List Deed) (thread : Thread C) : Thread C :=
  if worker.failure.isSome then
    { thread with worker, phase := .arriving .exchange, history := thread.history ++ deeds }
  else
    { thread with
      worker := { worker with rank := { worker.rank with outgoing := [] } }
      phase := .posting worker.rank.outgoing.reverse
      history := thread.history ++ deeds }

/-- A thread of a healthy rank that opens a window. -/
def inWindow (plan : Plan n) (thread : Thread C) : Thread C :=
  { thread with
    worker := thread.worker.note .trace ["window ", thread.start.label, " .. ",
      ((plan.bound thread.start).getD Instant.max).label]
    phase := .dispatching }

/-- A thread among others opens a window where its rank did not fail. -/
theorem step_opening (among : plan.alone = false) {thread : Thread C}
    (phase : thread.phase = .opening) (healthy : thread.worker.failure = none) (view : View n) :
    thread.step plan view = some (thread.inWindow plan, .idle) := by
  simp only [step, phase, openWindow, among, healthy, Option.isSome_none, Bool.false_eq_true,
    if_false]
  rfl

/-- A healthy rank does in a window what it dispatches. -/
theorem advance_of_healthy {fuel : Nat} {thread : Thread C}
    (healthy : thread.worker.failure = none) :
    thread.advance plan fuel = match (thread.inWindow plan).rank.dispatchUntil
        (plan.bound thread.start) (plan.byVote thread.round) fuel with
      | none => none
      | some (rank, .ok stop) =>
        some { (thread.inWindow plan).worker with rank, limitHit := stop == .limitReached }
      | some (rank, .error halt) =>
        some { rank, failure := some (Worker.errorOf rank.id halt), limitHit := false } := by
  rw [advance, Worker.advance, healthy, Option.isSome_none, if_neg Bool.false_ne_true]
  rfl

/-- The deeds of a healthy rank in a window are those of what it dispatches. -/
theorem advanceDeeds_of_healthy {fuel : Nat} {thread : Thread C}
    (healthy : thread.worker.failure = none) :
    thread.advanceDeeds plan fuel = (thread.inWindow plan).rank.untilDeeds
      (plan.bound thread.start) (plan.byVote thread.round) fuel := by
  rw [advanceDeeds, Worker.advanceDeeds, healthy, Option.isSome_none, if_neg Bool.false_ne_true]
  rfl

/-- A thread among others gets through the window that it is to open. -/
theorem strides_window (among : plan.alone = false) {fuel : Nat} {thread : Thread C}
    (phase : thread.phase = .opening) {worker : Worker C}
    (advances : thread.advance plan fuel = some worker) :
    ∃ count, Strides plan thread
      (thread.behindWindow worker (thread.advanceDeeds plan fuel)) count := by
  cases failed : thread.worker.failure with
  | some error =>
    rw [advance, Worker.advance, failed, Option.isSome_some, if_pos rfl] at advances
    cases advances
    refine ⟨1, .single fun view => ?_⟩
    rw [advanceDeeds, Worker.advanceDeeds, failed, Option.isSome_some, if_pos rfl, behindWindow]
    simp only [step, phase, openWindow, among, failed, Option.isSome_some, Bool.false_eq_true,
      if_false, if_true, List.append_nil]
  | none =>
    have opens := step_opening among phase failed
    rw [advance_of_healthy failed] at advances
    rw [advanceDeeds_of_healthy failed]
    cases runs : (thread.inWindow plan).rank.dispatchUntil (plan.bound thread.start)
        (plan.byVote thread.round) fuel with
    | none =>
      rw [runs] at advances
      cases advances
    | some dispatched =>
      obtain ⟨count, strides⟩ := @strides_dispatch _ _ plan _ fuel (thread.inWindow plan) rfl _ runs
      refine ⟨count + 1, .before opens ?_⟩
      obtain ⟨rank, outcome⟩ := dispatched
      rw [runs] at advances
      cases outcome with
      | ok stop =>
        cases advances
        have healthy : (thread.inWindow plan).worker.failure.isSome = false := by
          rw [show (thread.inWindow plan).worker.failure = thread.worker.failure from rfl, failed]
          rfl
        rw [settled, stopped, among, if_neg Bool.false_ne_true] at strides
        rw [behindWindow]
        simp only [healthy, Bool.false_eq_true, if_false]
        exact strides
      | error halt =>
        cases advances
        rw [settled, halted, among, if_neg Bool.false_ne_true] at strides
        exact strides

/-- A thread among others that cannot get through its window makes more steps than there is fuel. -/
theorem strides_beyond (among : plan.alone = false) {fuel : Nat} {thread : Thread C}
    (phase : thread.phase = .opening) (advances : thread.advance plan fuel = none) :
    ∃ last, Strides plan thread last (fuel + 1) := by
  cases failed : thread.worker.failure with
  | some error =>
    rw [advance, Worker.advance, failed, Option.isSome_some, if_pos rfl] at advances
    cases advances
  | none =>
    have opens := step_opening among phase failed
    rw [advance_of_healthy failed] at advances
    cases runs : (thread.inWindow plan).rank.dispatchUntil (plan.bound thread.start)
        (plan.byVote thread.round) fuel with
    | none =>
      obtain ⟨last, strides⟩ := @strides_dispatch _ _ plan _ fuel (thread.inWindow plan) rfl _ runs
      exact ⟨last, .before opens strides⟩
    | some dispatched =>
      obtain ⟨rank, outcome⟩ := dispatched
      rw [runs] at advances
      cases outcome <;> cases advances

/-- A thread calls the finish hooks of its rank and ends. -/
theorem strides_finish (reason : Termination) (rest : List ComponentId) (thread : Thread C)
    (phase : thread.phase = .finishing reason rest) :
    ∃ count, Strides plan thread (thread.closed reason (Rank.finishAll rest thread.rank)) count := by
  induction rest generalizing thread with
  | nil =>
    refine ⟨1, .single fun view => ?_⟩
    simp only [step, phase, finishNext, goTo, Rank.finishAll, closed, withRank, rank]
  | cons id rest ih =>
    cases called : thread.rank.finishOne id with
    | mk rank halt =>
      cases halt with
      | none =>
        have first : ∀ view, thread.step plan view =
            some ((thread.withRank rank).goTo (.finishing reason rest), .idle) := by
          intro view
          simp only [step, phase, finishNext, called]
        obtain ⟨count, strides⟩ := ih ((thread.withRank rank).goTo (.finishing reason rest)) rfl
        refine ⟨count + 1, .before first ?_⟩
        simp only [Rank.finishAll, called]
        exact strides
      | some halt =>
        refine ⟨1, .single fun view => ?_⟩
        simp only [step, phase, finishNext, called, Rank.finishAll, closed]

end Thread

end Rally
