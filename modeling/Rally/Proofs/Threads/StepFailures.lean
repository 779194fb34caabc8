import Rally.Proofs.Threads.FailingCalls
import Rally.Proofs.Threads.StepCases
/-!
# Steps in which a thread fails

A thread halts in a step that calls a hook that fails, and in no other one: a single rank ends there, and one
among others is failed and goes on to the exchange. It ends without a report where a finish hook breaks off,
and where the ranks give up behind a window in which one of them failed.
-/

namespace Rally

namespace Phase

/-- Whether a thread calls setup hooks, or dispatches events. -/
def calls : Phase → Prop
  | starting _ | dispatching => True
  | _ => False

/-- Whether a thread may call a hook of any kind. -/
def isCalling : Phase → Prop
  | starting _ | dispatching | finishing _ _ => True
  | _ => False

end Phase

namespace Thread

variable {C : Type} [Component C] {n : Nat} {plan : Plan n} {view : View n} {thread next : Thread C}
  {effect : Effect n}

/-- Whether a thread calls a setup hook next, or dispatches an event, that fails. -/
inductive Fails (plan : Plan n) (thread : Thread C) : Halt → Prop where
  /-- A setup hook fails. -/
  | setup {id : ComponentId} {rest : List ComponentId} {halt : Halt}
      (before : thread.phase = .starting (id :: rest)) (fails : thread.rank.SetupFails id halt) :
      Fails plan thread halt
  /-- The dispatch of the next event fails. -/
  | dispatch {event : Scheduled Delivery} {pending : EventSet Delivery} {halt : Halt}
      (before : thread.phase = .dispatching)
      (turn : thread.rank.turn (plan.bound thread.start) (plan.byVote thread.round) =
        .ok (event, pending)) (fails : thread.rank.DispatchFails event halt) : Fails plan thread halt

/-- Whether a thread calls a finish hook next that breaks off. -/
def Breaks (thread : Thread C) (panic : Panic) : Prop :=
  ∃ reason id rest, thread.phase = .finishing reason (id :: rest) ∧ thread.rank.FinishFails id panic

omit [Component C] in
/-- Whether a rank owns the receiver of the event that it takes next. -/
def Receives (plan : Plan n) (thread : Thread C) : Prop :=
  ∀ event pending, thread.phase = .dispatching →
    thread.rank.turn (plan.bound thread.start) (plan.byVote thread.round) = .ok (event, pending) →
      ∃ slot, thread.rank.slot? (thread.rank.receiver event.payload).component = some slot

omit [Component C] in
/-- Whether the parcel that a thread posts next is for a rank that is there. -/
def Reaches (plan : Plan n) (thread : Thread C) : Prop :=
  ∀ parcel rest, thread.phase = .posting (parcel :: rest) → plan.index? parcel.target ≠ none

/-- Only threads that may call hooks call one that fails. -/
theorem Fails.calls {halt : Halt} (fails : thread.Fails plan halt) : thread.phase.calls := by
  cases fails with
  | setup before | dispatch before => rw [before]; trivial

/-- A call fails for one reason alone. -/
theorem Fails.unique {halt other : Halt} (fails : thread.Fails plan halt)
    (also : thread.Fails plan other) : halt = other := by
  cases fails with
  | setup before fails =>
    cases also with
    | setup there also =>
      cases before.symm.trans there
      exact fails.unique also
    | dispatch there => cases before.symm.trans there
  | dispatch before turn fails =>
    cases also with
    | setup there => cases before.symm.trans there
    | dispatch _ again also =>
      cases turn.symm.trans again
      exact fails.unique also

/-- How a thread fares in a step: where nothing fails, it goes on. -/
inductive Fares (plan : Plan n) (thread next : Thread C) : Prop where
  /-- A setup hook or the dispatch of an event fails: a single rank ends, another one is failed. -/
  | halts {halt : Halt} (fails : thread.Fails plan halt)
      (alone : plan.alone = true → next.phase = .ended (.error halt) ∧
        next.worker.failure = thread.worker.failure)
      (among : plan.alone = false → (next.phase = .opening ∨ next.phase = .arriving .exchange) ∧
        next.worker.failure = some (Worker.errorOf thread.rank.id halt))
      (round : next.round = thread.round)
  /-- A finish hook breaks off, and the thread ends. -/
  | breaks {panic : Panic} (breaks : thread.Breaks panic)
      (ended : next.phase = .ended (.error (.panicked panic)))
      (failure : next.worker.failure = thread.worker.failure) (round : next.round = thread.round)
  /-- The ranks give up, and the thread ends. -/
  | aborts {read : List RankStatus} (before : thread.phase = .reading read) (all : n ≤ read.length)
      (decided : decision read = .abort)
      (ended : next.phase = .ended (.error (.failed
        (thread.worker.failure.getD (.peerAborted thread.rank.id)))))
      (failure : next.worker.failure = thread.worker.failure) (round : next.round = thread.round)
  /-- The ranks go on to another window. -/
  | proceeds {read : List RankStatus} {later : Instant} (before : thread.phase = .reading read)
      (all : n ≤ read.length) (decided : decision read = .proceed later)
      (opens : next.phase = .opening) (failure : next.worker.failure = thread.worker.failure)
      (round : next.round = thread.round + 1)
  /-- No hook fails, and the thread goes on within its window or behind the last one. -/
  | calm (hooks : ∀ halt, ¬ thread.Fails plan halt) (finish : ∀ panic, ¬ thread.Breaks panic)
      (calls : next.phase.calls → plan.alone = false →
        thread.phase.calls ∨ thread.worker.failure = none)
      (goes : ∀ halt, next.phase ≠ .ended (.error halt))
      (failure : next.worker.failure = thread.worker.failure) (round : next.round = thread.round)

/-- A thread that calls no hook in a step, and goes on, fares well. -/
theorem fares_of_quiet (quiet : ¬ thread.phase.isCalling)
    (calls : next.phase.calls → plan.alone = false →
      thread.phase.calls ∨ thread.worker.failure = none)
    (goes : ∀ halt, next.phase ≠ .ended (.error halt))
    (failure : next.worker.failure = thread.worker.failure) (round : next.round = thread.round) :
    Fares plan thread next := by
  refine .calm (fun halt fails => quiet ?_) (fun panic breaks => quiet ?_) calls goes failure round
  · cases fails with
    | setup before | dispatch before => rw [before]; trivial
  · obtain ⟨reason, id, rest, before, -⟩ := breaks
    rw [before]
    trivial

/-- How a thread fares that has setup hooks to call. -/
theorem fares_startNext {rest : List ComponentId} (before : thread.phase = .starting rest) :
    Fares plan thread (thread.startNext plan.alone rest) := by
  have finish (panic : Panic) : ¬ thread.Breaks panic := by
    rintro ⟨reason, id, rest, there, -⟩
    cases before.symm.trans there
  have starting : thread.phase.calls := by rw [before]; trivial
  cases rest with
  | nil =>
    refine .calm (fun halt fails => ?_) finish (fun next _ => Or.inl starting)
      (fun halt same => by cases same) rfl rfl
    cases fails with
    | setup there | dispatch there => cases before.symm.trans there
  | cons id rest =>
    rw [startNext]
    cases called : thread.rank.setup id with
    | mk rank halt =>
      have told : (thread.rank.setup id).2 = halt := by rw [called]
      cases halt with
      | none =>
        refine .calm (fun halt fails => ?_) finish (fun next _ => Or.inl starting)
          (fun halt same => by cases same) rfl rfl
        cases fails with
        | setup there fails =>
          cases before.symm.trans there
          cases told.symm.trans (Rank.setup_fails_iff.mpr fails)
        | dispatch there => cases before.symm.trans there
      | some halt =>
        have course : Rank.Course (fun _ => True) thread.rank _ _ := Rank.setup_course id thread.rank
        rw [called] at course
        have fails : thread.Fails plan halt := .setup before (Rank.setup_fails_iff.mp told)
        simp only
        cases alone : plan.alone with
        | true =>
          rw [if_pos rfl]
          exact .halts fails (fun _ => ⟨rfl, rfl⟩) (fun among => by rw [alone] at among; cases among) rfl
        | false =>
          rw [if_neg Bool.false_ne_true]
          exact .halts fails (fun single => by rw [alone] at single; cases single)
            (fun _ => ⟨Or.inl rfl, congrArg (fun id => some (Worker.errorOf id halt))
              course.keeps_links.1⟩) rfl

/-- How a thread fares that dispatches, where the rank owns the receiver of its next event. -/
theorem fares_dispatchNext (before : thread.phase = .dispatching)
    (receives : thread.Receives plan) : Fares plan thread (thread.dispatchNext plan) := by
  have finish (panic : Panic) : ¬ thread.Breaks panic := by
    rintro ⟨reason, id, rest, there, -⟩
    cases before.symm.trans there
  have dispatching : thread.phase.calls := by rw [before]; trivial
  rw [dispatchNext]
  cases turn : thread.rank.turn (plan.bound thread.start) (plan.byVote thread.round) with
  | error stop =>
    have hooks (halt : Halt) : ¬ thread.Fails plan halt := by
      rintro (⟨there, -⟩ | ⟨-, again, -⟩)
      · cases before.symm.trans there
      · cases turn.symm.trans again
    simp only [stopped]
    cases plan.alone <;>
      exact .calm hooks finish (fun _ _ => Or.inl dispatching) (fun halt same => by cases same) rfl rfl
  | ok taken =>
    obtain ⟨event, pending⟩ := taken
    obtain ⟨slot, owned⟩ := receives event pending before turn
    have course : Rank.Course (fun _ => True) thread.rank _ _ :=
      Rank.dispatch_course (Rank.turn_ok turn).1 trivial
    have fails_iff {halt : Halt} : thread.Fails plan halt ↔
        (Rank.dispatch event { thread.rank with pending }).2 = some halt := by
      rw [Rank.dispatch_fails_iff owned]
      refine ⟨?_, fun fails => .dispatch before turn fails⟩
      rintro (⟨there, -⟩ | ⟨-, again, fails⟩)
      · cases before.symm.trans there
      · cases turn.symm.trans again
        exact fails
    simp only
    cases called : Rank.dispatch event { thread.rank with pending } with
    | mk rank halt =>
      simp only [called] at fails_iff course
      cases halt with
      | none =>
        refine .calm (fun halt fails => ?_) finish (fun _ _ => Or.inl dispatching)
          (fun halt same => ?_) rfl rfl
        · cases fails_iff.mp fails
        · cases before.symm.trans same
      | some halt =>
        simp only [halted]
        cases alone : plan.alone with
        | true =>
          rw [if_pos rfl]
          exact .halts (fails_iff.mpr rfl) (fun _ => ⟨rfl, rfl⟩)
            (fun among => by rw [alone] at among; cases among) rfl
        | false =>
          rw [if_neg Bool.false_ne_true]
          exact .halts (fails_iff.mpr rfl) (fun single => by rw [alone] at single; cases single)
            (fun _ => ⟨Or.inr rfl, congrArg (fun id => some (Worker.errorOf id halt))
              course.keeps_links.1⟩) rfl

/-- How a thread fares that opens a window. -/
theorem fares_openWindow (before : thread.phase = .opening) :
    Fares plan thread (thread.openWindow plan) := by
  have opening : ¬ thread.phase.isCalling := by rw [before]; exact id
  rw [openWindow]
  split
  · next alone =>
    exact fares_of_quiet opening (fun _ among => by rw [alone] at among; cases among)
      (fun _ same => by cases same) rfl rfl
  · split
    · exact fares_of_quiet opening (fun next => next.elim) (fun _ same => by cases same) rfl rfl
    · next healthy =>
      exact fares_of_quiet opening (fun _ _ => Or.inr (Option.not_isSome_iff_eq_none.mp healthy))
        (fun _ same => by cases same) rfl rfl

/-- How a thread fares that has finish hooks to call. -/
theorem fares_finishNext {reason : Termination} {rest : List ComponentId}
    (before : thread.phase = .finishing reason rest) :
    Fares plan thread (thread.finishNext reason rest) := by
  have hooks (halt : Halt) : ¬ thread.Fails plan halt := by
    rintro (⟨there, -⟩ | ⟨there, -, -⟩) <;> cases before.symm.trans there
  cases rest with
  | nil =>
    refine .calm hooks (fun panic breaks => ?_) (fun next => next.elim)
      (fun halt same => by cases same) rfl rfl
    obtain ⟨reason, id, rest, there, -⟩ := breaks
    cases before.symm.trans there
  | cons id rest =>
    rw [finishNext]
    cases called : thread.rank.finishOne id with
    | mk rank halt =>
      have told : (thread.rank.finishOne id).2 = halt := by rw [called]
      cases halt with
      | none =>
        refine .calm hooks (fun panic breaks => ?_) (fun next => next.elim)
          (fun halt same => by cases same) rfl rfl
        obtain ⟨other, position, left, there, fails⟩ := breaks
        cases before.symm.trans there
        cases told.symm.trans (Rank.finishOne_fails_iff.mpr fails)
      | some halt =>
        obtain ⟨panic, rfl⟩ := Rank.panicked_of_finishOne called
        exact .breaks ⟨reason, id, rest, before, Rank.finishOne_fails_iff.mp told⟩ rfl rfl rfl

/-- How a thread goes on that has read the status of all ranks. -/
theorem fares_decide {read : List RankStatus} (before : thread.phase = .reading read)
    (all : n ≤ read.length) : Fares plan thread (thread.decide read) := by
  rw [decide]
  cases decided : decision read with
  | proceed later => exact .proceeds before all decided rfl rfl rfl
  | stop reason =>
    exact fares_of_quiet (by rw [before]; exact id) (fun next => next.elim)
      (fun halt same => by cases same) rfl rfl
  | abort => exact .aborts before all decided rfl rfl rfl

/-- How a thread fares in a step, where the rank owns the receiver of its next event and its next parcel is
for a rank that is there. -/
theorem fares_of_step (receives : thread.Receives plan) (reaches : thread.Reaches plan)
    (stepped : thread.step plan view = some (next, effect)) : Fares plan thread next := by
  have quiet {phase : Phase} (before : thread.phase = phase) (quiet : ¬ phase.isCalling)
      (calls : ¬ next.phase.calls) (goes : ∀ halt, next.phase ≠ .ended (.error halt))
      (failure : next.worker.failure = thread.worker.failure) (round : next.round = thread.round) :
      Fares plan thread next :=
    fares_of_quiet (before ▸ quiet) (fun calling => absurd calling calls) goes failure round
  cases steps_of_step stepped with
  | starts before => exact fares_startNext before
  | opens before => exact fares_openWindow before
  | dispatches before => exact fares_dispatchNext before receives
  | postsAll before | posts before | arrives before | takes before | schedules before
  | publishes before | reads before =>
    exact quiet before id id (fun _ same => by cases same) rfl rfl
  | @passes gate _ before =>
    cases gate <;> exact quiet before id id (fun _ same => by cases same) rfl rfl
  | loses before unknown => exact absurd unknown (reaches _ _ before)
  | decides before all => exact fares_decide before all
  | finishes before => exact fares_finishNext before

end Thread

end Rally
