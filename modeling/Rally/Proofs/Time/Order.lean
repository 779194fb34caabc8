import Mathlib.Order.Defs.LinearOrder
import Rally.Simulation.Run
/-!
# The linear order of durations

Durations are ordered as their numbers of nanoseconds, and this order is linear. A clamped sum is
the sum of these numbers, cut off at the longest duration; so it grows in both arguments, and no
instant lies behind the clamped sum of itself and a latency.
-/

namespace Rally.Duration

/-- One duration is at most another exactly when its number of nanoseconds is. -/
theorem le_iff_toNanos_le (a b : Duration) : a ≤ b ↔ a.toNanos ≤ b.toNanos := by
  have ha := a.nanos_lt
  have hb := b.nanos_lt
  change ((compare a.secs b.secs).then (compare a.nanos b.nanos)).isLE ↔ _
  rw [Ordering.isLE_iff_ne_gt]
  refine (not_congr Ordering.then_eq_gt).trans ?_
  rw [Nat.compare_eq_gt, Nat.compare_eq_gt, Nat.compare_eq_eq]
  simp only [toNanos]
  omega

/-- Durations that are each at most the other are equal. -/
theorem eq_of_toNanos_le {a b : Duration} (up : a.toNanos ≤ b.toNanos)
    (down : b.toNanos ≤ a.toNanos) : a = b :=
  toNanos_injective (Nat.le_antisymm up down)

instance : LinearOrder Duration where
  le a b := a ≤ b
  lt a b := a < b
  min a b := min a b
  max a b := Max.max a b
  compare a b := compare a b
  le_refl a := (le_iff_toNanos_le a a).mpr (Nat.le_refl _)
  le_trans a b c first second := by
    rw [le_iff_toNanos_le] at *
    exact Nat.le_trans first second
  lt_iff_le_not_ge a b := by
    rw [lt_iff_toNanos_lt, le_iff_toNanos_le, le_iff_toNanos_le]
    omega
  le_antisymm a b up down := by
    rw [le_iff_toNanos_le] at *
    exact eq_of_toNanos_le up down
  le_total a b := by
    rw [le_iff_toNanos_le, le_iff_toNanos_le]
    omega
  toDecidableLE a b := inferInstanceAs (Decidable (a ≤ b))
  toDecidableEq := inferInstanceAs (DecidableEq Duration)
  toDecidableLT a b := inferInstanceAs (Decidable (a < b))
  min_def a b := rfl
  max_def a b := by
    change (if b ≤ a then a else b) = _
    by_cases up : a ≤ b
    · by_cases down : b ≤ a
      · rw [if_pos down, if_pos up]
        rw [le_iff_toNanos_le] at up down
        exact eq_of_toNanos_le up down
      · rw [if_neg down, if_pos up]
    · have down : b ≤ a := by
        rw [le_iff_toNanos_le] at *
        omega
      rw [if_pos down, if_neg up]
  compare_eq_compareOfLessAndEq a b := by
    change compare a b = if a < b then .lt else if a = b then .eq else .gt
    cases order : compare a b with
    | lt => rw [if_pos (show a < b from order)]
    | eq =>
      have up : a ≤ b := show (compare a b).isLE by rw [order]; rfl
      have later : ¬ a < b := fun less => by cases order.symm.trans less
      rw [le_iff_toNanos_le] at up
      rw [lt_iff_toNanos_lt] at later
      have same : a = b := eq_of_toNanos_le up (by omega)
      rw [if_neg (by rw [lt_iff_toNanos_lt]; exact later), if_pos same]
    | gt =>
      have later : ¬ a ≤ b := fun up => by
        have up : (compare a b).isLE := up
        rw [order] at up
        cases up
      rw [le_iff_toNanos_le] at later
      have differ : a ≠ b := fun same => by subst same; omega
      rw [if_neg (by rw [lt_iff_toNanos_lt]; omega), if_neg differ]

/-- A clamped sum stands for the sum of the nanoseconds, cut off at the longest duration. -/
theorem toNanos_saturatingAdd (a b : Duration) :
    (a.saturatingAdd b).toNanos = min (a.toNanos + b.toNanos) max.toNanos := by
  have ha := a.nanos_lt
  have hb := b.nanos_lt
  have hs := a.secs_lt
  have ht := b.secs_lt
  simp only [saturatingAdd, checkedAdd]
  split
  · split <;> simp only [Option.getD_some, Option.getD_none, toNanos, max] <;> omega
  · split <;> simp only [Option.getD_some, Option.getD_none, toNanos, max] <;> omega

/-- A clamped sum is no shorter than its first part. -/
theorem le_saturatingAdd (a b : Duration) : a ≤ a.saturatingAdd b := by
  have bound := a.toNanos_le_max
  rw [le_iff_toNanos_le, toNanos_saturatingAdd]
  omega

/-- A clamped sum grows with both of its parts. -/
theorem saturatingAdd_le_saturatingAdd {a b c d : Duration} (first : a ≤ c) (second : b ≤ d) :
    a.saturatingAdd b ≤ c.saturatingAdd d := by
  rw [le_iff_toNanos_le] at *
  rw [toNanos_saturatingAdd, toNanos_saturatingAdd]
  omega

/-- A clamped sum with a positive duration is longer, unless it starts at the longest duration. -/
theorem lt_saturatingAdd {a b : Duration} (positive : zero < b) (short : a < max) :
    a < a.saturatingAdd b := by
  rw [lt_iff_toNanos_lt] at *
  have none : zero.toNanos = 0 := rfl
  rw [toNanos_saturatingAdd]
  omega

/-- The longest duration is the greatest one. -/
theorem le_max (a : Duration) : a ≤ max :=
  (le_iff_toNanos_le a max).mpr a.toNanos_le_max

/-- The empty duration is the least one. -/
theorem zero_le (a : Duration) : zero ≤ a := by
  rw [le_iff_toNanos_le]
  exact Nat.zero_le _

end Rally.Duration
