import Rally.Queue.EventSet
/-!
# Event sets that correspond

In which order events leave a set depends on their times and on the order of their entry alone. So two sets
that take in corresponding events at the same times hand them out at the same times as well, whatever it is
that corresponds.
-/

namespace Rally

variable {α β γ : Type}

/-- The same event with something else to happen. -/
def Scheduled.map (f : α → β) (event : Scheduled α) : Scheduled β :=
  ⟨event.time, event.serial, f event.payload⟩

namespace Heap

/-- The same heap with other items. -/
def map (f : α → β) : Heap α → Heap β
  | .empty => .empty
  | .tree root children siblings => .tree (f root) (children.map f) (siblings.map f)

/-- There are as many items. -/
theorem size_map (f : α → β) (heap : Heap α) : (heap.map f).size = heap.size := by
  induction heap with
  | empty => rfl
  | tree root children siblings first others => rw [map, size, size, first, others]

/-- The item that comes first stands for the one that did. -/
theorem peek?_map (f : α → β) (heap : Heap α) : (heap.map f).peek? = heap.peek?.map f := by
  cases heap <;> rfl

/-- Items that are exchanged twice are exchanged at once. -/
theorem map_map (g : β → γ) (f : α → β) (heap : Heap α) :
    (heap.map f).map g = heap.map fun item => g (f item) := by
  induction heap with
  | empty => rfl
  | tree root children siblings first others => rw [map, map, map, first, others]

section Order

variable {f : α → β} {before : α → α → Bool} {order : β → β → Bool}
  (same : ∀ x y, order (f x) (f y) = before x y)

include same

/-- Heaps are joined alike where their items are in the same order. -/
theorem map_meld (heap other : Heap α) :
    (meld before heap other).map f = meld order (heap.map f) (other.map f) := by
  cases heap with
  | empty => cases other <;> rfl
  | tree x xs rest =>
    cases other with
    | empty => rfl
    | tree y ys more =>
      simp only [meld, map, same]
      split <;> rfl

/-- So are sequences of trees. -/
theorem map_meldAll (heap : Heap α) :
    (meldAll before heap).map f = meldAll order (heap.map f) := by
  induction heap using meldAll.induct with
  | case1 => rfl
  | case2 x xs => rfl
  | case3 x xs y ys rest ih =>
    rw [meldAll, map_meld same, map_meld same, ih]
    rfl

/-- An item is added alike. -/
theorem map_push (heap : Heap α) (item : α) :
    (push before heap item).map f = push order (heap.map f) (f item) :=
  map_meld same heap _

/-- An item is taken alike. -/
theorem pop?_map (heap : Heap α) :
    pop? order (heap.map f) = (pop? before heap).map fun taken => (f taken.1, taken.2.map f) := by
  cases heap with
  | empty => rfl
  | tree root children siblings =>
    rw [map, pop?, pop?, Option.map_some, map_meldAll same]

end Order

end Heap

namespace Fifo

/-- The same queue with other items. -/
def map (f : α → β) (queue : Fifo α) : Fifo β := ⟨queue.front.map f, queue.back.map f⟩

/-- There are as many items. -/
theorem size_map (f : α → β) (queue : Fifo α) : (queue.map f).size = queue.size := by
  rw [size, size, map, List.length_map, List.length_map]

/-- The first item stands for the one that was. -/
theorem peek?_map (f : α → β) (queue : Fifo α) : (queue.map f).peek? = queue.peek?.map f := by
  obtain ⟨front, back⟩ := queue
  cases front with
  | nil => exact List.getLast?_map
  | cons item rest => rfl

/-- An item is taken alike. -/
theorem pop?_map (f : α → β) (queue : Fifo α) :
    (queue.map f).pop? = queue.pop?.map fun taken => (f taken.1, taken.2.map f) := by
  obtain ⟨front, back⟩ := queue
  cases front with
  | cons item rest => rfl
  | nil =>
    simp only [pop?, map, List.map_nil, ← List.map_reverse]
    cases back.reverse <;> rfl

end Fifo

namespace EventSet

/-- The same set with something else to happen at its events. -/
def map (f : α → β) (set : EventSet α) : EventSet β where
  later := set.later.map (Scheduled.map f)
  current := set.current.map (Scheduled.map f)
  last := set.last
  entered := set.entered

variable (f : α → β) (set : EventSet α)

/-- There are as many events. -/
theorem size_map : (set.map f).size = set.size := by
  rw [size, map, Heap.size_map, Fifo.size_map, size]

/-- What is exchanged twice is exchanged at once. -/
theorem map_map (g : β → γ) : (set.map f).map g = set.map fun payload => g (f payload) := by
  simp only [map, Fifo.map, Heap.map_map, List.map_map]
  rfl

/-- The next event is due at the same instant. -/
theorem nextTime?_map : (set.map f).nextTime? = set.nextTime? := by
  simp only [nextTime?, map, Fifo.peek?_map, Heap.peek?_map]
  cases set.current.peek? <;> cases set.later.peek? <;> rfl

/-- It waits in the same place. -/
theorem isCurrentNext_map : (set.map f).isCurrentNext = set.isCurrentNext := by
  simp only [isCurrentNext, map, Fifo.peek?_map, Heap.peek?_map]
  cases set.current.peek? <;> cases set.later.peek? <;> rfl

/-- It is taken alike. -/
theorem pop?_map :
    (set.map f).pop? = set.pop?.map fun taken => (taken.1.map f, taken.2.map f) := by
  rw [pop?, pop?, isCurrentNext_map]
  split
  · simp only [map, Fifo.pop?_map, Option.map_map]
    rfl
  · have order : ∀ x y : Scheduled α, (x.map f).before (y.map f) = x.before y := fun _ _ => rfl
    simp only [map, Heap.pop?_map order, Option.map_map]
    rfl

/-- An event is added alike. -/
theorem map_add (time : Instant) (payload : α) :
    (set.add time payload).map f = (set.map f).add time (f payload) := by
  have order : ∀ x y : Scheduled α, (x.map f).before (y.map f) = x.before y := fun _ _ => rfl
  have same : (set.map f).last = set.last := rfl
  rw [add, add, same]
  split
  · rfl
  · simp only [map, Heap.map_push order]
    rfl

/-- Whether two sets have taken in and handed out events at the same times, at which corresponding things
happen. -/
def Corresponds (R : α → β → Prop) (set : EventSet α) (other : EventSet β) : Prop :=
  ∃ pairs : EventSet {pair : α × β // R pair.1 pair.2},
    set = pairs.map (fun pair => pair.val.1) ∧ other = pairs.map fun pair => pair.val.2

namespace Corresponds

variable {R : α → β → Prop} {f : α → β} {set : EventSet α} {other : EventSet β}

/-- Sets into which no event has entered correspond. -/
theorem empty : Corresponds R ({} : EventSet α) ({} : EventSet β) := ⟨{}, rfl, rfl⟩

variable (corresponds : Corresponds R set other)
include corresponds

/-- There are as many events in the one as in the other. -/
theorem size : set.size = other.size := by
  obtain ⟨pairs, rfl, rfl⟩ := corresponds
  rw [size_map, size_map]

/-- Their next events are due at the same instant. -/
theorem nextTime? : set.nextTime? = other.nextTime? := by
  obtain ⟨pairs, rfl, rfl⟩ := corresponds
  rw [nextTime?_map, nextTime?_map]

/-- Corresponding things are added. -/
theorem add {first : α} {second : β} (related : R first second) (time : Instant) :
    Corresponds R (set.add time first) (other.add time second) := by
  obtain ⟨pairs, rfl, rfl⟩ := corresponds
  have left := pairs.map_add (fun pair => pair.val.1) time ⟨(first, second), related⟩
  have right := pairs.map_add (fun pair => pair.val.2) time ⟨(first, second), related⟩
  exact ⟨pairs.add time ⟨(first, second), related⟩, left.symm, right.symm⟩

/-- Either there is no event in both, or corresponding events are due at the same time. -/
theorem pop? : set.pop? = none ∧ other.pop? = none ∨
    ∃ event also rest more, set.pop? = some (event, rest) ∧ other.pop? = some (also, more) ∧
      event.time = also.time ∧ R event.payload also.payload ∧ Corresponds R rest more := by
  obtain ⟨pairs, rfl, rfl⟩ := corresponds
  rw [pop?_map, pop?_map]
  cases pairs.pop? with
  | none => exact Or.inl ⟨rfl, rfl⟩
  | some taken =>
    exact Or.inr ⟨_, _, _, _, rfl, rfl, rfl, taken.1.payload.property, taken.2, rfl, rfl⟩

/-- What corresponds is told alike where what happens is. -/
theorem map_eq {tell : α → γ} {say : β → γ} (same : ∀ x y, R x y → tell x = say y) :
    set.map tell = other.map say := by
  obtain ⟨pairs, rfl, rfl⟩ := corresponds
  rw [map_map, map_map]
  exact congrArg (fun f => pairs.map f) (funext fun pair => same _ _ pair.property)

end Corresponds

end EventSet

end Rally
