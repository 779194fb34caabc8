import Mathlib.Data.List.Perm.Basic
import Rally.Proofs.Time.Order
/-!
# The first item of a heap

A heap keeps a single tree in which no item comes before the one above it. Melding keeps the items
and this order, so the root comes first among all items, and taking it leaves the others.
-/

namespace Rally.Heap

variable {α : Type} {before : α → α → Bool}

/-- A heap without trees beside its first one. -/
def Single : Heap α → Prop
  | .empty => True
  | .tree _ _ siblings => siblings = .empty

/-- No item comes before the one above it. -/
def Ordered (before : α → α → Bool) : Heap α → Prop
  | .empty => True
  | .tree root children siblings =>
    (∀ item ∈ children.toList, before item root = false) ∧
      Ordered before children ∧ Ordered before siblings

/-- What a Boolean order must satisfy to be the order of a heap. -/
structure Precedes (before : α → α → Bool) : Prop where
  /-- Of two items at most one comes before the other. -/
  asymm : ∀ x y, before x y = true → before y x = false
  /-- What does not come before an item does not come before any that this one does not. -/
  trans : ∀ x y z, before y x = false → before z y = false → before z x = false

/-- A tree with nothing beside it is single. -/
theorem single_tree (root : α) (children : Heap α) : (tree root children .empty).Single := rfl

/-- Melding two single trees gives a single tree. -/
theorem single_meld {x y : Heap α} (first : x.Single) (second : y.Single) :
    (meld before x y).Single := by
  cases x with
  | empty => exact second
  | tree a as left =>
    cases y with
    | empty => exact first
    | tree b bs right =>
      rw [meld]
      split <;> rfl

/-- Melding two single trees keeps their items. -/
theorem toList_meld {x y : Heap α} (first : x.Single) (second : y.Single) :
    (meld before x y).toList.Perm (x.toList ++ y.toList) := by
  cases x with
  | empty => exact List.Perm.refl _
  | tree a as left =>
    cases y with
    | empty =>
      simp only [meld, toList, List.append_nil]
      exact List.Perm.refl _
    | tree b bs right =>
      obtain rfl : left = .empty := first
      obtain rfl : right = .empty := second
      rw [meld]
      split
      · simp only [toList, List.append_nil]
        exact (@List.perm_middle _ b (a :: as.toList) bs.toList).symm
      · simp only [toList, List.append_nil]
        refine List.Perm.cons a ?_
        exact @List.perm_append_comm _ (b :: bs.toList) as.toList

/-- Melding two single trees in order gives one in order. -/
theorem ordered_meld (order : Precedes before) {x y : Heap α} (first : x.Single)
    (second : y.Single) (left : x.Ordered before) (right : y.Ordered before) :
    (meld before x y).Ordered before := by
  cases x with
  | empty => exact right
  | tree a as others =>
    cases y with
    | empty => exact left
    | tree b bs rest =>
      obtain rfl : others = .empty := first
      obtain rfl : rest = .empty := second
      obtain ⟨belowA, orderedA, -⟩ := left
      obtain ⟨belowB, orderedB, -⟩ := right
      rw [meld]
      split
      · next earlier =>
        refine ⟨fun item inside => ?_, ⟨belowA, orderedA, orderedB⟩, trivial⟩
        have atA : before a b = false := order.asymm b a earlier
        simp only [toList, List.mem_cons, List.mem_append] at inside
        rcases inside with rfl | inside | inside
        · exact atA
        · exact order.trans b a item atA (belowA item inside)
        · exact belowB item inside
      · next later =>
        have atB : before b a = false := by simpa using later
        refine ⟨fun item inside => ?_, ⟨belowB, orderedB, orderedA⟩, trivial⟩
        simp only [toList, List.mem_cons, List.mem_append] at inside
        rcases inside with rfl | inside | inside
        · exact atB
        · exact order.trans a b item atB (belowB item inside)
        · exact belowA item inside

/-- Melding a sequence of trees gives a single tree. -/
theorem single_meldAll (heap : Heap α) : (meldAll before heap).Single := by
  fun_induction meldAll before heap with
  | case1 => trivial
  | case2 => rfl
  | case3 x xs y ys rest ih => exact single_meld (single_meld (single_tree x xs) (single_tree y ys)) ih

/-- Melding a sequence of trees keeps their items. -/
theorem toList_meldAll (heap : Heap α) : (meldAll before heap).toList.Perm heap.toList := by
  fun_induction meldAll before heap with
  | case1 => exact List.Perm.refl _
  | case2 => exact List.Perm.refl _
  | case3 x xs y ys rest ih =>
    have pair := @toList_meld _ before _ _ (single_tree x xs) (single_tree y ys)
    have single := @single_meld _ before _ _ (single_tree x xs) (single_tree y ys)
    have whole := @toList_meld _ before _ _ single (@single_meldAll _ before rest)
    refine whole.trans ((pair.append ih).trans ?_)
    simp only [toList, List.append_nil, List.cons_append, List.append_assoc]
    exact List.Perm.refl _

/-- Melding a sequence of trees in order gives a tree in order. -/
theorem ordered_meldAll (order : Precedes before) (heap : Heap α) (sorted : heap.Ordered before) :
    (meldAll before heap).Ordered before := by
  fun_induction meldAll before heap with
  | case1 => trivial
  | case2 => exact sorted
  | case3 x xs y ys rest ih =>
    obtain ⟨belowX, orderedX, belowY, orderedY, others⟩ := sorted
    exact ordered_meld order (single_meld (single_tree x xs) (single_tree y ys))
      (single_meldAll rest)
      (ordered_meld order (single_tree x xs) (single_tree y ys) ⟨belowX, orderedX, trivial⟩
        ⟨belowY, orderedY, trivial⟩)
      (ih others)

/-- The number of items is the length of their list. -/
theorem size_eq_length (heap : Heap α) : heap.size = heap.toList.length := by
  induction heap with
  | empty => rfl
  | tree root children siblings below beside =>
    simp only [size, toList, List.length_cons, List.length_append, below, beside]
    omega

/-- Adding an item keeps the others. -/
theorem toList_push {heap : Heap α} (single : heap.Single) (item : α) :
    (push before heap item).toList.Perm (item :: heap.toList) := by
  refine (toList_meld single (single_tree item .empty)).trans ?_
  exact List.perm_append_singleton item heap.toList

/-- No item comes before the one that is looked at. -/
theorem peek?_first {heap : Heap α} (order : Precedes before) (single : heap.Single)
    (sorted : heap.Ordered before) {first : α} (found : heap.peek? = some first) :
    ∀ item ∈ heap.toList, before item first = false := by
  cases heap with
  | empty => cases found
  | tree root children siblings =>
    obtain rfl : siblings = .empty := single
    obtain rfl : root = first := by simpa only [peek?, Option.some.injEq] using found
    intro item inside
    simp only [toList, List.append_nil, List.mem_cons] at inside
    rcases inside with rfl | inside
    · cases same : before item item with
      | false => rfl
      | true => exact same.symm.trans (order.asymm item item same)
    · exact sorted.1 item inside

/-- Nothing is looked at exactly when there is no item. -/
theorem peek?_eq_none_iff (heap : Heap α) : heap.peek? = none ↔ heap.toList = [] := by
  cases heap <;> simp [peek?, toList]

/-- What is taken is what is looked at. -/
theorem peek?_of_pop? {heap rest : Heap α} {first : α}
    (taken : heap.pop? before = some (first, rest)) : heap.peek? = some first := by
  cases heap with
  | empty => cases taken
  | tree root children siblings =>
    simp only [pop?, Option.some.injEq, Prod.mk.injEq] at taken
    exact congrArg some taken.1

/-- Something is taken whenever there is an item. -/
theorem pop?_isSome {heap : Heap α} {first : α} (found : heap.peek? = some first) :
    ∃ rest, heap.pop? before = some (first, rest) := by
  cases heap with
  | empty => cases found
  | tree root children siblings =>
    obtain rfl : root = first := by simpa only [peek?, Option.some.injEq] using found
    exact ⟨_, rfl⟩

/-- Taking leaves all other items, in a single tree in order. -/
theorem pop?_rest {heap rest : Heap α} {first : α} (order : Precedes before)
    (single : heap.Single) (sorted : heap.Ordered before)
    (taken : heap.pop? before = some (first, rest)) :
    heap.toList.Perm (first :: rest.toList) ∧ rest.Single ∧ rest.Ordered before := by
  cases heap with
  | empty => cases taken
  | tree root children siblings =>
    obtain rfl : siblings = .empty := single
    simp only [pop?, Option.some.injEq, Prod.mk.injEq] at taken
    obtain ⟨rfl, rfl⟩ := taken
    refine ⟨?_, single_meldAll _, ordered_meldAll order _ sorted.2.1⟩
    simp only [toList, List.append_nil]
    exact (toList_meldAll children).symm.cons _

end Rally.Heap
