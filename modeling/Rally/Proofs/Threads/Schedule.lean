import Rally.Proofs.Simulation.Placement
import Rally.Proofs.Threads.Interleaving
import Rally.Proofs.Threads.StatusReads
/-!
# Schedules

Every run of a simulation on several ranks is regular: its threads are in lockstep, they read what
the ledger records, and parcels stay on track. In a regular run some thread has a step until all
have ended. All schedules that end do so after the same number of steps and with the same threads,
and every other schedule can be continued to such an end.
-/

namespace Rally

namespace System

variable {C : Type} {n : Nat} {plan : Plan n} {system next : System C n}

/-- What holds throughout a run. -/
structure Regular (plan : Plan n) (system : System C n) : Prop where
  /-- The threads are in lockstep. -/
  lockstep : system.Lockstep
  /-- They read what is recorded. -/
  recorded : ∃ ledger, system.Recorded ledger
  /-- Parcels are addressed and in order. -/
  carried : system.Carried plan
  /-- The channels are as tracked. -/
  tracked : system.Tracked

/-- Whether all threads have ended. -/
def Complete (system : System C n) : Prop :=
  ∀ index, ∃ result, (system.threads index).phase = .ended result

/-- Once a thread has left its rounds, none goes on to another window. -/
theorem Regular.round_le (regular : system.Regular plan) {index : Fin n}
    (gone : (system.threads index).phase.isOver) (other : Fin n) :
    (system.threads other).round ≤ (system.threads index).round := by
  obtain ⟨ledger, recorded⟩ := regular.recorded
  have sync := regular.lockstep.synchronous
  have last : 2 * (system.threads index).round + 2 = system.generation := by
    rw [← (sync index).epoch_eq (Phase.not_isWaiting_of_isOver gone), Thread.epoch,
      Phase.lag_of_isOver gone]
  refine Nat.le_of_not_lt fun ahead => ?_
  obtain ⟨read, minute, left⟩ := (recorded.minuted index).left gone
  have minutes := (recorded.minuted other).length
  have went := (recorded.minuted other).went
  have inside : (system.threads index).round < (system.threads other).minutes.length := by omega
  -- Both threads read the same entry of the ledger behind that window.
  have mine := List.prefix_iff_getElem?.mp (recorded.reads index).shared
  have theirs := List.prefix_iff_getElem?.mp (recorded.reads other).shared
  obtain ⟨length, value⟩ := List.getElem?_eq_some_iff.mp minute
  have same : (system.threads other).minutes[(system.threads index).round] = read := by
    have first := mine _ length
    have second := theirs _ inside
    rw [first, Option.some.injEq] at second
    rw [← second]
    exact value
  obtain ⟨start, proceeds⟩ :=
    went read (List.mem_take_iff_getElem.mpr ⟨_, by omega, same⟩)
  rw [proceeds] at left
  exact left

variable [Component C]

/-- A step of a regular run is regular. -/
theorem Regular.step (regular : system.Regular plan) (among : plan.alone = false)
    (distinct : Function.Injective plan.ids) {index : Fin n}
    (stepped : system.step plan index = some next) : next.Regular plan := by
  obtain ⟨ledger, recorded⟩ := regular.recorded
  obtain ⟨more, longer⟩ := recorded.step regular.lockstep among stepped
  exact ⟨regular.lockstep.step among stepped, ⟨_, longer⟩,
    regular.carried.step distinct stepped, regular.tracked.step regular.lockstep among stepped⟩

/-- A regular run stays regular. -/
theorem Regular.exec (regular : system.Regular plan) (among : plan.alone = false)
    (distinct : Function.Injective plan.ids) {schedule : List (Fin n)}
    (reached : system.exec plan schedule = some next) : next.Regular plan :=
  exec_preserves (fun _ _ _ regular stepped => regular.step among distinct stepped) reached regular

/-- A thread has no step only where it has ended or waits at a closed barrier. -/
theorem stuck_iff {index : Fin n} :
    system.step plan index = none ↔ (∃ result, (system.threads index).phase = .ended result) ∨
      (system.threads index).waitsAt system.generation = true := by
  rw [System.step, Option.map_eq_none_iff, Thread.waitsAt]
  unfold Thread.step
  cases phase : (system.threads index).phase with
  | waiting gate stamp =>
    by_cases opened : system.generation = stamp
    · simp [view, opened]
    · simp [view, opened, Ne.symm opened]
  | draining taken =>
    cases inbox : system.channels index <;> simp [view, inbox]
  | _ => simp

/-- In a regular run some thread has a step until all have ended. -/
theorem Regular.progress (regular : system.Regular plan) (running : ¬ system.Complete) :
    ∃ index, system.step plan index ≠ none := by
  by_contra stuck
  have stuck : ∀ index, (∃ result, (system.threads index).phase = .ended result) ∨
      (system.threads index).waitsAt system.generation = true := by
    intro index
    rw [← @stuck_iff _ _ plan]
    by_contra moves
    exact stuck ⟨index, moves⟩
  obtain ⟨index, notEnded⟩ := not_forall.mp running
  have waits := (stuck index).resolve_left notEnded
  obtain ⟨other, absent⟩ : ∃ other, other ∉ system.waiting system.generation := by
    by_contra none
    have all : ∀ other, other ∈ system.waiting system.generation :=
      fun other => by_contra fun absent => none ⟨other, absent⟩
    have card : (system.waiting system.generation).card = n := by
      rw [Finset.eq_univ_of_forall all, Finset.card_univ, Fintype.card_fin]
    have room := regular.lockstep.room
    rw [regular.lockstep.arrived, card] at room
    exact Nat.lt_irrefl _ room
  rw [mem_waiting] at absent
  obtain ⟨result, ended⟩ := (stuck other).resolve_right absent
  have gone : (system.threads other).phase.isOver := by rw [ended]; trivial
  have last : 2 * (system.threads other).round + 2 = system.generation := by
    rw [← (regular.lockstep.synchronous other).epoch_eq (Phase.not_isWaiting_of_isOver gone),
      Thread.epoch, Phase.lag_of_isOver gone]
  obtain ⟨gate, waits⟩ := Thread.waitsAt_iff.mp waits
  have stamped := (regular.lockstep.synchronous index).stamped gate _ waits
  have behind := regular.round_le gone index
  rw [Thread.epoch, waits] at stamped
  cases gate <;> simp only [Phase.lag] at stamped <;> omega

/-- Runs that are alike stay so under the same schedule. -/
theorem Alike.exec {other : System C n} (alike : system.Alike other)
    (regular : system.Regular plan) (among : plan.alone = false)
    (distinct : Function.Injective plan.ids) {schedule : List (Fin n)}
    (reached : system.exec plan schedule = some next) :
    ∃ last, other.exec plan schedule = some last ∧ next.Alike last := by
  induction schedule generalizing system other with
  | nil =>
    cases reached
    exact ⟨other, rfl, alike⟩
  | cons index rest ih =>
    obtain ⟨middle, stepped, reached⟩ := Option.bind_eq_some_iff.mp reached
    obtain ⟨fellow, steppedToo, alike⟩ := alike.step regular.carried stepped
    obtain ⟨last, reachedToo, alike⟩ :=
      ih alike (regular.step among distinct stepped) reached
    exact ⟨last, Option.bind_eq_some_iff.mpr ⟨fellow, steppedToo, reachedToo⟩, alike⟩

/-- Where no thread has a step in one of two runs that are alike, none has one in the other. -/
theorem Alike.stuck {other : System C n} (alike : system.Alike other)
    (regular : other.Regular plan) (final : ∀ index, system.step plan index = none) :
    ∀ index, other.step plan index = none := by
  intro index
  cases stepped : other.step plan index with
  | none => rfl
  | some last =>
    obtain ⟨next, steps, -⟩ := alike.symm.step regular.carried stepped
    cases (final index).symm.trans steps

/-- After any step, a run comes to the same end as without it, one step sooner. -/
theorem Regular.catch_up (among : plan.alone = false) (distinct : Function.Injective plan.ids)
    {schedule : List (Fin n)} {last : System C n} (regular : system.Regular plan)
    {index : Fin n} (stepped : system.step plan index = some next)
    (reached : system.exec plan schedule = some last)
    (final : ∀ index, last.step plan index = none) :
    ∃ rest fellow, next.exec plan rest = some fellow ∧ last.Alike fellow ∧
      rest.length + 1 = schedule.length := by
  induction schedule generalizing system next index with
  | nil =>
    cases reached
    cases (final index).symm.trans stepped
  | cons first rest ih =>
    obtain ⟨middle, moved, onward⟩ := Option.bind_eq_some_iff.mp reached
    by_cases same : index = first
    · subst same
      obtain rfl : middle = next := Option.some.inj (moved.symm.trans stepped)
      exact ⟨rest, last, onward, Alike.refl last, rfl⟩
    · obtain ⟨left, right, leftStep, rightStep, alike⟩ :=
        regular.lockstep.diamond among same moved stepped
      have middleRegular := regular.step among distinct moved
      obtain ⟨shorter, fellow, caught, sameEnd, length⟩ :=
        ih middleRegular leftStep onward
      obtain ⟨end', caughtToo, sameToo⟩ :=
        alike.exec (middleRegular.step among distinct leftStep) among distinct caught
      refine ⟨first :: shorter, end', ?_, sameEnd.trans sameToo, ?_⟩
      · exact Option.bind_eq_some_iff.mpr ⟨right, rightStep, caughtToo⟩
      · rw [List.length_cons, List.length_cons, length]

/-- A run that comes to an end does so under every schedule that is continued long enough, always
after the same number of steps. -/
theorem Regular.descent (among : plan.alone = false) (distinct : Function.Injective plan.ids)
    {schedule other : List (Fin n)} {last : System C n} (regular : system.Regular plan)
    (reached : system.exec plan schedule = some last)
    (final : ∀ index, last.step plan index = none)
    (reachedToo : system.exec plan other = some next) :
    ∃ rest fellow, next.exec plan rest = some fellow ∧ last.Alike fellow ∧
      other.length + rest.length = schedule.length := by
  induction other generalizing system schedule last with
  | nil =>
    cases reachedToo
    exact ⟨schedule, last, reached, Alike.refl last, Nat.zero_add _⟩
  | cons index others ih =>
    obtain ⟨middle, stepped, reachedToo⟩ := Option.bind_eq_some_iff.mp reachedToo
    obtain ⟨rest, fellow, caught, alike, length⟩ :=
      regular.catch_up among distinct stepped reached final
    have middleRegular := regular.step among distinct stepped
    have stuck := alike.stuck (middleRegular.exec among distinct caught) final
    obtain ⟨more, end', continued, sameEnd, total⟩ :=
      ih middleRegular caught stuck reachedToo
    refine ⟨more, end', continued, alike.trans sameEnd, ?_⟩
    rw [List.length_cons]
    omega

end System

end Rally
