/-!
# Spans of simulated time

A duration counts whole seconds and the nanoseconds left over. Sums and differences carry between
the two fields; the number of nanoseconds that a duration stands for is `Duration.toNanos`, and the
order of durations is the order of these numbers (`Duration.lt_iff_toNanos_lt`).
-/

namespace Rally

/-- A span of simulated time: seconds below `2 ^ 64` and nanoseconds below one second. -/
structure Duration where
  /-- Whole seconds. -/
  secs : Nat
  /-- Nanoseconds beyond the whole seconds. -/
  nanos : Nat
  /-- The seconds fit in a machine word. -/
  secs_lt : secs < 18446744073709551616 := by decide
  /-- The nanoseconds never make up a whole second. -/
  nanos_lt : nanos < 1000000000 := by decide
  deriving DecidableEq

namespace Duration

/-- Nanoseconds in one second. -/
def nanosPerSecond : Nat := 1000000000

/-- The empty span. -/
def zero : Duration where
  secs := 0
  nanos := 0

/-- The longest span that can be represented. -/
def max : Duration where
  secs := 18446744073709551615
  nanos := 999999999

instance : Inhabited Duration := ⟨zero⟩

/-- The number of nanoseconds a duration stands for. -/
def toNanos (d : Duration) : Nat := d.secs * 1000000000 + d.nanos

/-- The duration of a number of nanoseconds, refused beyond the longest span. -/
def ofNanos? (n : Nat) : Option Duration :=
  if h : n / 1000000000 < 18446744073709551616 then
    some ⟨n / 1000000000, n % 1000000000, h, Nat.mod_lt _ (by decide)⟩
  else none

/-- The duration of some seconds and any number of nanoseconds, which carry into the seconds. -/
def ofParts? (secs nanos : Nat) : Option Duration := ofNanos? (secs * 1000000000 + nanos)

/-- The complaint about parts that make up no duration. -/
def partsMessage : String := "overflow in Duration::new"

/-- Adds with a carry from the nanoseconds, refusing a sum whose seconds no longer fit. -/
def checkedAdd (a b : Duration) : Option Duration :=
  if carries : a.nanos + b.nanos < 1000000000 then
    if fits : a.secs + b.secs < 18446744073709551616 then
      some ⟨a.secs + b.secs, a.nanos + b.nanos, fits, carries⟩
    else none
  else
    if fits : a.secs + b.secs + 1 < 18446744073709551616 then
      some ⟨a.secs + b.secs + 1, a.nanos + b.nanos - 1000000000, fits, by
        have := a.nanos_lt; have := b.nanos_lt; omega⟩
    else none

/-- Adds, clamping at the longest span. -/
def saturatingAdd (a b : Duration) : Duration := (a.checkedAdd b).getD max

/-- Subtracts with a borrow from the seconds, refusing a negative difference. -/
def checkedSub (a b : Duration) : Option Duration :=
  if a.secs < b.secs then none
  else if covers : b.nanos ≤ a.nanos then
    some ⟨a.secs - b.secs, a.nanos - b.nanos, by have := a.secs_lt; omega, by
      have := a.nanos_lt; omega⟩
  else if a.secs = b.secs then none
  else
    some ⟨a.secs - b.secs - 1, a.nanos + 1000000000 - b.nanos, by have := a.secs_lt; omega, by
      have := a.nanos_lt; omega⟩

/-- Subtracts, clamping at the empty span. -/
def saturatingSub (a b : Duration) : Duration := (a.checkedSub b).getD zero

/-- Durations are ordered by their seconds and then by their nanoseconds. -/
instance : Ord Duration where
  compare a b := (compare a.secs b.secs).then (compare a.nanos b.nanos)

instance : LT Duration := ltOfOrd
instance : LE Duration := leOfOrd

/-- The earlier of two, the first one if they are equal. -/
instance : Min Duration where
  min a b := if a ≤ b then a else b

/-- The later of two, the first one if they are equal. -/
instance : Max Duration where
  max a b := if b ≤ a then a else b

/-- A duration is determined by its number of nanoseconds. -/
theorem toNanos_injective {a b : Duration} (same : a.toNanos = b.toNanos) : a = b := by
  obtain ⟨s, n, _, hn⟩ := a
  obtain ⟨t, m, _, hm⟩ := b
  simp only [toNanos] at same
  have : s = t := by omega
  have : n = m := by omega
  subst s n
  rfl

/-- No duration is longer than the longest one. -/
theorem toNanos_le_max (d : Duration) : d.toNanos ≤ max.toNanos := by
  have := d.secs_lt
  have := d.nanos_lt
  simp only [toNanos, max]
  omega

/-- The order of durations is the order of their nanoseconds. -/
theorem lt_iff_toNanos_lt (a b : Duration) : a < b ↔ a.toNanos < b.toNanos := by
  have ha := a.nanos_lt
  have hb := b.nanos_lt
  show (compare a.secs b.secs).then (compare a.nanos b.nanos) = .lt ↔ _
  rw [Ordering.then_eq_lt, Nat.compare_eq_lt, Nat.compare_eq_lt, Nat.compare_eq_eq]
  simp only [toNanos]
  omega

end Duration

end Rally
