/-!
# First in, first out

A queue is a list of items to take from and a reversed list of items added since. Its content in
order is `Fifo.toList`: adding extends this list at its end, and taking removes its head.
-/

namespace Rally

/-- Items in the order of their arrival. -/
structure Fifo (α : Type) where
  /-- The items to be taken first. -/
  front : List α := []
  /-- The items behind them, the last one first. -/
  back : List α := []

namespace Fifo

variable {α : Type}

/-- The items in the order of their arrival. -/
def toList (queue : Fifo α) : List α := queue.front ++ queue.back.reverse

/-- The number of items. -/
def size (queue : Fifo α) : Nat := queue.front.length + queue.back.length

/-- Whether there is no item. -/
def isEmpty (queue : Fifo α) : Bool := queue.front.isEmpty && queue.back.isEmpty

/-- Adds an item behind all others. -/
def push (queue : Fifo α) (item : α) : Fifo α := { queue with back := item :: queue.back }

/-- The first item and the queue behind it. -/
def pop? (queue : Fifo α) : Option (α × Fifo α) :=
  match queue.front with
  | item :: rest => some (item, { queue with front := rest })
  | [] =>
    match queue.back.reverse with
    | item :: rest => some (item, ⟨rest, []⟩)
    | [] => none

/-- The first item. -/
def peek? (queue : Fifo α) : Option α :=
  match queue.front with
  | item :: _ => some item
  | [] => queue.back.getLast?

/-- Adding extends the content at its end. -/
@[simp] theorem toList_push (queue : Fifo α) (item : α) :
    (queue.push item).toList = queue.toList ++ [item] := by
  simp [push, toList]

/-- The size is the length of the content. -/
theorem size_eq_length (queue : Fifo α) : queue.size = queue.toList.length := by
  simp [size, toList]

/-- There is no item where the content is empty. -/
theorem isEmpty_eq (queue : Fifo α) : queue.isEmpty = queue.toList.isEmpty := by
  obtain ⟨front, back⟩ := queue
  cases front <;> cases back <;> simp [isEmpty, toList]

/-- The first item is the head of the content. -/
theorem peek?_eq_head? (queue : Fifo α) : queue.peek? = queue.toList.head? := by
  obtain ⟨front, back⟩ := queue
  cases front <;> simp [peek?, toList]

/-- Taking removes the head of the content. -/
theorem pop?_toList (queue : Fifo α) :
    queue.pop?.map (fun (item, rest) => item :: rest.toList) =
      if queue.toList = [] then none else some queue.toList := by
  obtain ⟨front, back⟩ := queue
  cases front with
  | cons item rest => simp [pop?, toList]
  | nil =>
    cases taken : back.reverse with
    | nil => simp [pop?, toList, taken]
    | cons item rest => simp [pop?, toList, taken]

end Fifo

end Rally
