/-!
# Keyed lists

A keyed list holds at most one value for each name when it is built by `put` alone, and keeps the
names in the order of their first appearance. Looking up after `put` gives the value put.
-/

namespace Rally

/-- Values under names, in order. -/
abbrev Keyed (α : Type) := List (String × α)

namespace Keyed

variable {α : Type}

/-- The value of a name. -/
def get? (key : String) : Keyed α → Option α
  | [] => none
  | (k, value) :: rest => if k = key then some value else get? key rest

/-- Sets the value of a name, in the place of its former value. -/
def put (key : String) (value : α) : Keyed α → Keyed α
  | [] => [(key, value)]
  | (k, former) :: rest =>
    if k = key then (key, value) :: rest else (k, former) :: put key value rest

/-- The names, sorted. -/
def sortedKeys (entries : Keyed α) : List String :=
  (entries.map Prod.fst).mergeSort fun a b => decide (a ≤ b)

/-- The value put is found. -/
theorem get?_put_self (key : String) (value : α) (entries : Keyed α) :
    get? key (put key value entries) = some value := by
  induction entries with
  | nil => simp [put, get?]
  | cons entry rest hyp =>
    obtain ⟨k, former⟩ := entry
    by_cases same : k = key <;> simp [put, get?, same, hyp]

/-- Other values are kept. -/
theorem get?_put_of_ne {key other : String} (differ : other ≠ key) (value : α)
    (entries : Keyed α) : get? other (put key value entries) = get? other entries := by
  induction entries with
  | nil => simp [put, get?, Ne.symm differ]
  | cons entry rest hyp =>
    obtain ⟨k, former⟩ := entry
    by_cases same : k = key
    · subst same
      simp [put, get?, Ne.symm differ]
    · simp [put, get?, same, hyp]

end Keyed

end Rally
