/-!
# Pairing heaps

A heap is a tree whose root comes first among its items. A tree is stored by its root, its first
child and its next sibling, so that melding two heaps compares their roots alone. Which item comes
first is given by a Boolean order.
-/

namespace Rally

/-- A sequence of trees, each with the trees below it. -/
inductive Heap (α : Type) where
  /-- No tree. -/
  | empty
  /-- A tree, the trees below its root, and the trees beside it. -/
  | tree (root : α) (children siblings : Heap α)
  deriving Inhabited

namespace Heap

variable {α : Type}

/-- The number of items. -/
def size : Heap α → Nat
  | .empty => 0
  | .tree _ children siblings => 1 + children.size + siblings.size

/-- Whether there is no item. -/
def isEmpty : Heap α → Bool
  | .empty => true
  | .tree _ _ _ => false

/-- All items, in no particular order. -/
def toList : Heap α → List α
  | .empty => []
  | .tree root children siblings => root :: (children.toList ++ siblings.toList)

/-- Joins two single trees under the root that comes first, the left one if neither does. -/
def meld (before : α → α → Bool) : Heap α → Heap α → Heap α
  | .empty, heap => heap
  | heap, .empty => heap
  | .tree x xs _, .tree y ys _ =>
    if before y x then .tree y (.tree x xs ys) .empty else .tree x (.tree y ys xs) .empty

/-- Joins a sequence of trees, neighbours first. -/
def meldAll (before : α → α → Bool) : Heap α → Heap α
  | .empty => .empty
  | .tree x xs .empty => .tree x xs .empty
  | .tree x xs (.tree y ys rest) =>
    meld before (meld before (.tree x xs .empty) (.tree y ys .empty)) (meldAll before rest)

/-- Adds an item. -/
def push (before : α → α → Bool) (heap : Heap α) (item : α) : Heap α :=
  meld before heap (.tree item .empty .empty)

/-- The item that comes first. -/
def peek? : Heap α → Option α
  | .empty => none
  | .tree root _ _ => some root

/-- The item that comes first, and the heap without it. -/
def pop? (before : α → α → Bool) : Heap α → Option (α × Heap α)
  | .empty => none
  | .tree root children _ => some (root, meldAll before children)

end Heap

end Rally
