import Rally.Proofs.Time.Order
/-!
# Arithmetic of instants

Sums and differences are computed in two fields, with a carry or a borrow between seconds and nanoseconds.
They stand for the sums and differences of the numbers of nanoseconds: a checked sum is refused exactly
past the last instant, a clamped one stops there, and a clamped difference stops at zero
(`Instant.exact_nanos`).
-/

namespace Rally

namespace Duration

/-- A checked sum is the duration of the sum of the nanoseconds. -/
theorem checkedAdd_eq_some_iff {a b sum : Duration} :
    a.checkedAdd b = some sum ↔ sum.toNanos = a.toNanos + b.toNanos := by
  have total : ∀ found, a.checkedAdd b = some found →
      found.toNanos = a.toNanos + b.toNanos := by
    intro found adds
    have ha := a.nanos_lt
    have hb := b.nanos_lt
    rw [checkedAdd] at adds
    split at adds <;> split at adds
    · cases adds
      simp only [toNanos]
      omega
    · cases adds
    · cases adds
      simp only [toNanos]
      omega
    · cases adds
  refine ⟨total sum, fun same => ?_⟩
  cases adds : a.checkedAdd b with
  | some found => rw [toNanos_injective ((total found adds).trans same.symm)]
  | none =>
    -- The seconds of a sum that is refused do not fit, and those of a duration do.
    have hs := sum.secs_lt
    have hn := sum.nanos_lt
    have ha := a.nanos_lt
    have hb := b.nanos_lt
    rw [checkedAdd] at adds
    simp only [toNanos] at same
    split at adds <;> split at adds
    · cases adds
    · omega
    · cases adds
    · omega

/-- A checked sum is refused exactly past the longest duration. -/
theorem checkedAdd_eq_none_iff {a b : Duration} :
    a.checkedAdd b = none ↔ max.toNanos < a.toNanos + b.toNanos := by
  constructor
  · intro refused
    have clamped := toNanos_saturatingAdd a b
    rw [saturatingAdd, refused, Option.getD_none] at clamped
    by_contra fits
    have exact : a.toNanos + b.toNanos = max.toNanos := by omega
    have accepted := checkedAdd_eq_some_iff.mpr exact.symm
    rw [refused] at accepted
    cases accepted
  · intro past
    cases adds : a.checkedAdd b with
    | none => rfl
    | some sum =>
      have total := checkedAdd_eq_some_iff.mp adds
      have bound := sum.toNanos_le_max
      omega

/-- A checked difference is the duration of the difference of the nanoseconds. -/
theorem toNanos_checkedSub {a b : Duration} {rest : Duration}
    (subtracts : a.checkedSub b = some rest) : rest.toNanos + b.toNanos = a.toNanos := by
  have ha := a.nanos_lt
  have hb := b.nanos_lt
  rw [checkedSub] at subtracts
  split at subtracts
  · cases subtracts
  split at subtracts
  · cases subtracts
    simp only [toNanos]
    omega
  split at subtracts
  · cases subtracts
  · cases subtracts
    simp only [toNanos]
    omega

/-- A checked difference is refused exactly where it would be negative. -/
theorem checkedSub_eq_none_iff {a b : Duration} :
    a.checkedSub b = none ↔ a.toNanos < b.toNanos := by
  have ha := a.nanos_lt
  have hb := b.nanos_lt
  rw [checkedSub]
  simp only [toNanos]
  split
  · simp only [true_iff]
    omega
  split
  · simp only [reduceCtorEq, false_iff]
    omega
  split
  · simp only [true_iff]
    omega
  · simp only [reduceCtorEq, false_iff]
    omega

/-- A clamped difference stands for the difference of the nanoseconds, or for none. -/
theorem toNanos_saturatingSub (a b : Duration) :
    (a.saturatingSub b).toNanos = a.toNanos - b.toNanos := by
  rw [saturatingSub]
  cases subtracts : a.checkedSub b with
  | some rest =>
    have whole := toNanos_checkedSub subtracts
    rw [Option.getD_some]
    omega
  | none =>
    have less := checkedSub_eq_none_iff.mp subtracts
    have nothing : zero.toNanos = 0 := rfl
    rw [Option.getD_none]
    omega

/-- Durations compare as their numbers of nanoseconds do. -/
theorem compare_eq (a b : Duration) : compare a b = compare a.toNanos b.toNanos := by
  cases order : compare a.toNanos b.toNanos with
  | lt => exact (lt_iff_toNanos_lt a b).mpr (Nat.compare_eq_lt.mp order)
  | eq =>
    have same : a = b := toNanos_injective (Nat.compare_eq_eq.mp order)
    subst same
    exact compare_eq_iff_eq.mpr rfl
  | gt =>
    have more : b < a := (lt_iff_toNanos_lt b a).mpr (Nat.compare_eq_gt.mp order)
    exact compare_gt_iff_gt.mpr more

end Duration

namespace Instant

open Duration (toNanos)

/-- A sum is there exactly where the checked sum is. -/
theorem plus_eq_ok_iff {t later : Instant} {d : Duration} :
    t.plus d = .ok later ↔ t.checkedAdd d = some later := by
  rw [plus]
  cases t.checkedAdd d with
  | some sum => simp only [Except.ok.injEq, Option.some.injEq]
  | none => simp only [reduceCtorEq]

/-- A sum is a complaint exactly where the checked sum is refused. -/
theorem plus_eq_error_iff {t : Instant} {d : Duration} {complaint : String} :
    t.plus d = .error complaint ↔ t.checkedAdd d = none ∧ complaint = overflowMessage := by
  rw [plus]
  cases t.checkedAdd d with
  | some sum => simp only [reduceCtorEq, false_and]
  | none => simp only [Except.error.injEq, true_and, eq_comm]

/-- What the sums and differences of instants and durations stand for. -/
structure Exact (s t : Instant) (d : Duration) : Prop where
  /-- The last instant lies one nanosecond before `2 ^ 64` seconds. -/
  last : Instant.max.toNanos = 18446744073709551615 * 1000000000 + 999999999
  /-- There is a checked sum exactly up to the last instant. -/
  accepts : (t.checkedAdd d).isSome = true ↔ t.toNanos + d.toNanos ≤ Instant.max.toNanos
  /-- It stands for the sum of the nanoseconds. -/
  total : ∀ later, t.checkedAdd d = some later → later.toNanos = t.toNanos + d.toNanos
  /-- A sum is the checked one. -/
  sum : ∀ later, t.plus d = .ok later ↔ t.checkedAdd d = some later
  /-- Where there is none, the sum is a complaint about the overflow. -/
  overflow : ∀ complaint, t.plus d = .error complaint ↔
    t.checkedAdd d = none ∧ complaint = overflowMessage
  /-- A clamped sum stops at the last instant. -/
  clamped : (t.saturatingAdd d).toNanos = min (t.toNanos + d.toNanos) Instant.max.toNanos
  /-- A difference stops at zero. -/
  difference : ((s.saturatingSub t).toNanos : Int) = Max.max ((s.toNanos : Int) - t.toNanos) 0
  /-- Instants compare as their numbers of nanoseconds do. -/
  order : compare s t = compare s.toNanos t.toNanos
  /-- Only equal instants have equal numbers of nanoseconds. -/
  same : s = t ↔ s.toNanos = t.toNanos
  /-- The nanoseconds of a sum or difference never make up a whole second. -/
  parts : (∀ later, t.checkedAdd d = some later → later.nanos < 1000000000) ∧
    (t.saturatingAdd d).nanos < 1000000000 ∧ (s.saturatingSub t).nanos < 1000000000
  /-- A clamped sum grows with both of its parts. -/
  grows : ∀ later longer, t ≤ later → d ≤ longer →
    t.saturatingAdd d ≤ later.saturatingAdd longer
  /-- A positive duration leads past every instant but the last. -/
  passes : Duration.zero < d → t < Instant.max → t < t.saturatingAdd d
  /-- What is added comes back as the difference. -/
  returns : ∀ later, t.plus d = .ok later → later.saturatingSub t = d

/-- The arithmetic of instants is exact arithmetic on nanoseconds. -/
theorem exact_nanos (s t : Instant) (d : Duration) : Exact s t d where
  last := by decide
  accepts := by
    rw [Option.isSome_iff_ne_none, Ne, Duration.checkedAdd_eq_none_iff, Nat.not_lt]
    rfl
  total _ adds := Duration.checkedAdd_eq_some_iff.mp adds
  sum _ := plus_eq_ok_iff
  overflow _ := plus_eq_error_iff
  clamped := Duration.toNanos_saturatingAdd t d
  difference := by
    rw [Duration.toNanos_saturatingSub]
    omega
  order := Duration.compare_eq s t
  same := ⟨congrArg toNanos, Duration.toNanos_injective⟩
  parts := ⟨fun later _ => later.nanos_lt, Duration.nanos_lt _, Duration.nanos_lt _⟩
  grows _ _ := Duration.saturatingAdd_le_saturatingAdd
  passes := Duration.lt_saturatingAdd
  returns later adds := by
    have total := Duration.checkedAdd_eq_some_iff.mp (plus_eq_ok_iff.mp adds)
    refine Duration.toNanos_injective ?_
    rw [Duration.toNanos_saturatingSub, total, Nat.add_sub_cancel_left]

/-- One nanosecond leads from the last but one instant to the last one, two lead past it. -/
example : (Duration.checkedAdd ⟨18446744073709551615, 999999998, by decide, by decide⟩
      ⟨0, 1, by decide, by decide⟩ = some Instant.max) ∧
    Duration.checkedAdd ⟨18446744073709551615, 999999998, by decide, by decide⟩
      ⟨0, 2, by decide, by decide⟩ = none := by decide

end Instant

end Rally
