import Mathlib.Order.Basic
import Rally.Proofs.Queue.HeapOrder
/-!
# Event sets as lists in the order of entry

What an event set holds is seen through `EventSet.inOrder`, its events in the order in which they
entered. In a sound set, adding an event that is not due before the last one taken extends this list
at its end, and taking removes its first event of least time. Nothing else is needed of the two
queues behind an event set.
-/

namespace Rally

namespace Scheduled

variable {α : Type}

/-- An event comes before another one by its time, and at one time by its serial number. -/
theorem before_eq_true_iff (x y : Scheduled α) :
    x.before y = true ↔ x.time < y.time ∨ x.time = y.time ∧ x.serial < y.serial := by
  simp [before]

/-- An event does not come before another one when it is due later, or at the same time and did
not enter earlier. -/
theorem before_eq_false_iff (x y : Scheduled α) :
    x.before y = false ↔ y.time < x.time ∨ y.time = x.time ∧ y.serial ≤ x.serial := by
  rw [← Bool.not_eq_true, before_eq_true_iff]
  constructor
  · intro later
    rcases lt_trichotomy x.time y.time with less | same | more
    · exact absurd (Or.inl less) later
    · refine Or.inr ⟨same.symm, ?_⟩
      by_contra earlier
      exact later (Or.inr ⟨same, by omega⟩)
    · exact Or.inl more
  · rintro (more | ⟨same, entered⟩) (less | ⟨_, earlier⟩)
    · exact lt_asymm more less
    · next same => exact absurd more (by rw [same]; exact lt_irrefl _)
    · exact absurd less (by rw [same]; exact lt_irrefl _)
    · omega

/-- The order of events is one that a heap can keep. -/
theorem precedes_before : Heap.Precedes (Scheduled.before (α := α)) where
  asymm x y earlier := by
    rw [before_eq_true_iff] at earlier
    rw [before_eq_false_iff]
    rcases earlier with less | ⟨same, earlier⟩
    · exact Or.inl less
    · exact Or.inr ⟨same, by omega⟩
  trans x y z first second := by
    rw [before_eq_false_iff] at *
    rcases first with less | ⟨same, entered⟩
    · rcases second with next | ⟨equal, _⟩
      · exact Or.inl (less.trans next)
      · exact Or.inl (equal ▸ less)
    · rcases second with next | ⟨equal, after⟩
      · exact Or.inl (same ▸ next)
      · exact Or.inr ⟨same.trans equal, by omega⟩

end Scheduled

namespace EventSet

variable {α : Type}

/-- The events waiting, in no particular order. -/
def toList (set : EventSet α) : List (Scheduled α) := set.current.toList ++ set.later.toList

/-- Whether an event entered no later than another one. -/
def enteredBefore (x y : Scheduled α) : Bool := decide (x.serial ≤ y.serial)

/-- The events waiting, in the order in which they entered. -/
def inOrder (set : EventSet α) : List (Scheduled α) := set.toList.mergeSort enteredBefore

/-- What holds of every set to which no event is added that is due before the last one taken. -/
structure Sound (set : EventSet α) : Prop where
  /-- The heap is a single tree. -/
  single : set.later.Single
  /-- The heap is in order. -/
  ordered : set.later.Ordered Scheduled.before
  /-- The queue of the last instant holds its events in the order of entry. -/
  queued : set.current.toList.Pairwise fun x y => x.serial < y.serial
  /-- The queue of the last instant holds events of that instant alone. -/
  current_time : ∀ event ∈ set.current.toList, event.time = set.last
  /-- No event is due before the last one taken. -/
  last_le : ∀ event ∈ set.toList, set.last ≤ event.time
  /-- Serial numbers are given in order. -/
  serial_lt : ∀ event ∈ set.toList, event.serial < set.entered
  /-- No serial number is given twice. -/
  distinct : (set.toList.map Scheduled.serial).Nodup

/-- The order of entry loses no event and adds none. -/
theorem inOrder_perm (set : EventSet α) : set.inOrder.Perm set.toList :=
  List.mergeSort_perm _ _

/-- The events in the order of entry are the events waiting. -/
@[simp] theorem mem_inOrder {set : EventSet α} {event : Scheduled α} :
    event ∈ set.inOrder ↔ event ∈ set.toList := set.inOrder_perm.mem_iff

/-- The number of events is the length of their list. -/
theorem size_eq_length (set : EventSet α) : set.size = set.inOrder.length := by
  rw [set.inOrder_perm.length_eq, toList, List.length_append, size, set.later.size_eq_length,
    set.current.size_eq_length, Nat.add_comm]

/-- Where no serial number is given twice, they increase in the order of entry. -/
theorem increasing_of_distinct {set : EventSet α}
    (distinct : (set.toList.map Scheduled.serial).Nodup) :
    set.inOrder.Pairwise fun x y => x.serial < y.serial := by
  have least : set.inOrder.Pairwise fun x y => enteredBefore x y = true :=
    List.pairwise_mergeSort
      (fun x y z first second => by
        simp only [enteredBefore, decide_eq_true_eq] at *
        omega)
      (fun x y => by
        simp only [enteredBefore, Bool.or_eq_true, decide_eq_true_eq]
        omega)
      set.toList
  have apart : (set.inOrder.map Scheduled.serial).Nodup :=
    (set.inOrder_perm.map Scheduled.serial).nodup_iff.mpr distinct
  rw [List.Nodup, List.pairwise_map] at apart
  refine (least.and apart).imp fun {x y} both => ?_
  have order : x.serial ≤ y.serial := by simpa [enteredBefore] using both.1
  have differ : x.serial ≠ y.serial := both.2
  omega

/-- In a sound set serial numbers increase in the order of entry. -/
theorem Sound.increasing {set : EventSet α} (sound : set.Sound) :
    set.inOrder.Pairwise fun x y => x.serial < y.serial :=
  increasing_of_distinct sound.distinct

/-- A list of the events of a set with increasing serial numbers is the list in the order of
entry. -/
theorem eq_inOrder {set : EventSet α} {events : List (Scheduled α)}
    (same : events.Perm set.toList) (sorted : events.Pairwise fun x y => x.serial < y.serial) :
    set.inOrder = events := by
  have distinct : (set.toList.map Scheduled.serial).Nodup := by
    rw [← (same.map Scheduled.serial).nodup_iff, List.Nodup, List.pairwise_map]
    exact sorted.imp fun earlier => Nat.ne_of_lt earlier
  refine (set.inOrder_perm.trans same.symm).eq_of_pairwise ?_
    (increasing_of_distinct distinct) sorted
  intro x y _ _ up down
  exact absurd up (Nat.lt_asymm down)

/-- An empty set is sound. -/
theorem sound_empty : ({} : EventSet α).Sound where
  single := trivial
  ordered := trivial
  queued := List.Pairwise.nil
  current_time event inside := by cases inside
  last_le event inside := by cases inside
  serial_lt event inside := by cases inside
  distinct := List.nodup_nil

/-- An empty set holds nothing. -/
@[simp] theorem inOrder_empty : ({} : EventSet α).inOrder = [] := by
  simp [inOrder, toList, Fifo.toList, Heap.toList]

/-- An event for the instant of the last one taken joins the queue of that instant. -/
theorem add_of_eq {set : EventSet α} {time : Instant} (now : time = set.last) (payload : α) :
    set.add time payload = { set with
      current := set.current.push ⟨time, set.entered, payload⟩, entered := set.entered + 1 } :=
  if_pos now

/-- Any other event joins the heap. -/
theorem add_of_ne {set : EventSet α} {time : Instant} (later : time ≠ set.last) (payload : α) :
    set.add time payload = { set with
      later := set.later.push Scheduled.before ⟨time, set.entered, payload⟩
      entered := set.entered + 1 } :=
  if_neg later

/-- Adding does not change the instant of the last event taken. -/
@[simp] theorem last_add (set : EventSet α) (time : Instant) (payload : α) :
    (set.add time payload).last = set.last := by
  by_cases now : time = set.last
  · rw [add_of_eq now]
  · rw [add_of_ne now]

/-- Adding counts one more event. -/
@[simp] theorem entered_add (set : EventSet α) (time : Instant) (payload : α) :
    (set.add time payload).entered = set.entered + 1 := by
  by_cases now : time = set.last
  · rw [add_of_eq now]
  · rw [add_of_ne now]

/-- Adding keeps the events of a sound set and adds one. -/
theorem toList_add {set : EventSet α} (sound : set.Sound) (time : Instant) (payload : α) :
    (set.add time payload).toList.Perm (set.toList ++ [⟨time, set.entered, payload⟩]) := by
  by_cases now : time = set.last
  · rw [add_of_eq now]
    simp only [toList, Fifo.toList_push, List.append_assoc]
    exact List.perm_append_comm.append_left _
  · rw [add_of_ne now]
    simp only [toList, List.append_assoc]
    refine List.Perm.append_left _ ((Heap.toList_push sound.single _).trans ?_)
    exact (List.perm_append_singleton _ _).symm

/-- Adding keeps a heap in order. -/
theorem ordered_add {set : EventSet α} (sound : set.Sound) (time : Instant) (payload : α) :
    (set.add time payload).later.Single ∧
      (set.add time payload).later.Ordered Scheduled.before := by
  by_cases now : time = set.last
  · rw [add_of_eq now]
    exact ⟨sound.single, sound.ordered⟩
  · rw [add_of_ne now]
    exact ⟨Heap.single_meld sound.single (Heap.single_tree _ _),
      Heap.ordered_meld Scheduled.precedes_before sound.single (Heap.single_tree _ _)
        sound.ordered ⟨(fun item inside => by cases inside), trivial, trivial⟩⟩

/-- The queue of the last instant takes events of that instant alone, in the order of entry. -/
theorem queued_add {set : EventSet α} (sound : set.Sound) (time : Instant) (payload : α) :
    ((set.add time payload).current.toList.Pairwise fun x y => x.serial < y.serial) ∧
      ∀ event ∈ (set.add time payload).current.toList, event.time = set.last := by
  by_cases now : time = set.last
  · rw [add_of_eq now]
    simp only [Fifo.toList_push, List.pairwise_append, List.mem_append, List.mem_singleton]
    refine ⟨⟨sound.queued, List.pairwise_singleton _ _, ?_⟩, ?_⟩
    · rintro event inside other rfl
      exact sound.serial_lt event (List.mem_append_left _ inside)
    · rintro event (old | rfl)
      · exact sound.current_time event old
      · exact now
  · rw [add_of_ne now]
    exact ⟨sound.queued, sound.current_time⟩

/-- Adding an event that is not due before the last one taken keeps a set sound. -/
theorem Sound.add {set : EventSet α} (sound : set.Sound) {time : Instant}
    (due : set.last ≤ time) (payload : α) : (set.add time payload).Sound := by
  have content := toList_add sound time payload
  have bounded : ∀ event ∈ (set.add time payload).toList,
      set.last ≤ event.time ∧ event.serial < set.entered + 1 := by
    intro event inside
    rcases List.mem_append.mp (content.mem_iff.mp inside) with old | new
    · exact ⟨sound.last_le event old, Nat.lt_succ_of_lt (sound.serial_lt event old)⟩
    · rw [List.mem_singleton] at new
      subst new
      exact ⟨due, Nat.lt_succ_self _⟩
  have distinct : ((set.add time payload).toList.map Scheduled.serial).Nodup := by
    rw [(content.map Scheduled.serial).nodup_iff, List.map_append]
    refine List.nodup_append.mpr ⟨sound.distinct, List.pairwise_singleton _ _, ?_⟩
    intro serial old other new same
    obtain ⟨event, inside, rfl⟩ := List.mem_map.mp old
    simp only [List.map_cons, List.map_nil, List.mem_singleton] at new
    have := sound.serial_lt event inside
    omega
  obtain ⟨single, ordered⟩ := ordered_add sound time payload
  obtain ⟨queued, current⟩ := queued_add sound time payload
  refine ⟨single, ordered, queued, ?_, ?_, ?_, distinct⟩
  · rw [last_add]
    exact current
  · rw [last_add]
    exact fun event inside => (bounded event inside).1
  · rw [entered_add]
    exact fun event inside => (bounded event inside).2

/-- Adding an event extends the order of entry at its end. -/
theorem inOrder_add {set : EventSet α} (sound : set.Sound) (time : Instant) (payload : α) :
    (set.add time payload).inOrder = set.inOrder ++ [⟨time, set.entered, payload⟩] := by
  refine eq_inOrder ?_ ?_
  · exact (set.inOrder_perm.append_right _).trans (toList_add sound time payload).symm
  · rw [List.pairwise_append]
    refine ⟨sound.increasing, List.pairwise_singleton _ _, ?_⟩
    intro event inside other new
    rw [List.mem_singleton] at new
    subst new
    exact sound.serial_lt event (mem_inOrder.mp inside)

/-- What the queue of the last instant gives comes before all that waits there. -/
theorem Sound.first_current {set : EventSet α} (sound : set.Sound) {first : Scheduled α}
    {rest : List (Scheduled α)} (content : set.current.toList = first :: rest) :
    ∀ event ∈ rest, event.before first = false := by
  intro event inside
  have queued := sound.queued
  rw [content, List.pairwise_cons] at queued
  have now := sound.current_time event (content ▸ List.mem_cons_of_mem _ inside)
  have same := sound.current_time first (content ▸ List.mem_cons_self)
  rw [Scheduled.before_eq_false_iff]
  exact Or.inr ⟨same.trans now.symm, Nat.le_of_lt (queued.1 event inside)⟩

/-- Taking from the queue of the last instant, in a sound set. -/
theorem Sound.pop_current {set : EventSet α} (sound : set.Sound) {first : Scheduled α}
    {current : Fifo (Scheduled α)} (taken : set.current.pop? = some (first, current))
    (ahead : ∀ event ∈ set.later.toList, event.before first = false) :
    let rest := { set with current, last := first.time }
    set.toList.Perm (first :: rest.toList) ∧
      (∀ event ∈ rest.toList, event.before first = false) ∧ rest.Sound := by
  have content : set.current.toList = first :: current.toList := by
    have shown := set.current.pop?_toList
    rw [taken] at shown
    by_cases none : set.current.toList = []
    · simp [none] at shown
    · simpa [none] using shown.symm
  have whole : set.toList.Perm (first :: (current.toList ++ set.later.toList)) := by
    rw [toList, content, List.cons_append]
  have now : first.time = set.last :=
    sound.current_time first (content ▸ List.mem_cons_self)
  refine ⟨whole, ?_, ?_⟩
  · intro event inside
    rcases List.mem_append.mp inside with queued | later
    · exact sound.first_current content event queued
    · exact ahead event later
  · have queued := sound.queued
    rw [content, List.pairwise_cons] at queued
    have distinct := sound.distinct
    rw [(whole.map Scheduled.serial).nodup_iff, List.map_cons, List.nodup_cons] at distinct
    refine ⟨sound.single, sound.ordered, queued.2, ?_, ?_, ?_, distinct.2⟩
    · intro event inside
      exact (sound.current_time event (content ▸ List.mem_cons_of_mem _ inside)).trans now.symm
    · intro event inside
      exact now ▸ sound.last_le event (whole.mem_iff.mpr (List.mem_cons_of_mem _ inside))
    · intro event inside
      exact sound.serial_lt event (whole.mem_iff.mpr (List.mem_cons_of_mem _ inside))

/-- Taking from the heap, in a sound set. -/
theorem Sound.pop_later {set : EventSet α} (sound : set.Sound) {first : Scheduled α}
    {later : Heap (Scheduled α)}
    (taken : set.later.pop? Scheduled.before = some (first, later))
    (ahead : ∀ event ∈ set.current.toList, event.before first = false) :
    let rest := { set with later, last := first.time }
    set.toList.Perm (first :: rest.toList) ∧
      (∀ event ∈ rest.toList, event.before first = false) ∧ rest.Sound := by
  obtain ⟨content, single, ordered⟩ :=
    Heap.pop?_rest Scheduled.precedes_before sound.single sound.ordered taken
  have least := Heap.peek?_first Scheduled.precedes_before sound.single sound.ordered
    (Heap.peek?_of_pop? taken)
  have whole : set.toList.Perm (first :: (set.current.toList ++ later.toList)) :=
    (content.append_left _).trans List.perm_middle
  have rest_after : ∀ event ∈ set.current.toList ++ later.toList, event.before first = false := by
    intro event inside
    rcases List.mem_append.mp inside with queued | below
    · exact ahead event queued
    · exact least event (content.mem_iff.mpr (List.mem_cons_of_mem _ below))
  have after_last : set.last ≤ first.time :=
    sound.last_le first (whole.mem_iff.mpr List.mem_cons_self)
  have distinct := sound.distinct
  rw [(whole.map Scheduled.serial).nodup_iff, List.map_cons, List.nodup_cons] at distinct
  refine ⟨whole, rest_after, single, ordered, sound.queued, ?_, ?_, ?_, distinct.2⟩
  · -- an event of the last instant forces the event taken to be of that instant
    intro event inside
    have now := sound.current_time event inside
    have order := ahead event inside
    rw [Scheduled.before_eq_false_iff] at order
    rcases order with less | ⟨same, _⟩
    · exact absurd after_last (not_le_of_gt (now ▸ less))
    · exact same.symm
  · intro event inside
    have order := rest_after event inside
    rw [Scheduled.before_eq_false_iff] at order
    rcases order with less | ⟨same, _⟩
    · exact le_of_lt less
    · exact le_of_eq same
  · intro event inside
    exact sound.serial_lt event (whole.mem_iff.mpr (List.mem_cons_of_mem _ inside))

/-- Taking from a sound set leaves the others, none of which comes before the one taken. -/
theorem Sound.pop {set rest : EventSet α} (sound : set.Sound) {first : Scheduled α}
    (taken : set.pop? = some (first, rest)) :
    set.toList.Perm (first :: rest.toList) ∧
      (∀ event ∈ rest.toList, event.before first = false) ∧ rest.Sound ∧
      rest.last = first.time ∧ rest.entered = set.entered := by
  unfold pop? at taken
  split at taken
  · next current =>
    obtain ⟨⟨event, queue⟩, found, same⟩ := Option.map_eq_some_iff.mp taken
    obtain ⟨rfl, rfl⟩ : event = first ∧ _ = rest := by simpa only [Prod.mk.injEq] using same
    have ahead : ∀ other ∈ set.later.toList, other.before event = false := by
      have peek : set.current.peek? = some event := by
        have shown := set.current.pop?_toList
        rw [set.current.peek?_eq_head?]
        rw [found] at shown
        by_cases none : set.current.toList = []
        · simp [none] at shown
        · have content : set.current.toList = event :: queue.toList := by
            simpa [none] using shown.symm
          rw [content, List.head?_cons]
      intro other inside
      rw [isCurrentNext, peek] at current
      cases top : set.later.peek? with
      | none =>
        rw [(Heap.peek?_eq_none_iff _).mp top] at inside
        cases inside
      | some root =>
        rw [top] at current
        have least := Heap.peek?_first Scheduled.precedes_before sound.single sound.ordered top
        exact Scheduled.precedes_before.trans event root other
          (Scheduled.precedes_before.asymm event root current) (least other inside)
    obtain ⟨whole, after, kept⟩ := sound.pop_current found ahead
    exact ⟨whole, after, kept, rfl, rfl⟩
  · next later =>
    obtain ⟨⟨event, heap⟩, found, same⟩ := Option.map_eq_some_iff.mp taken
    obtain ⟨rfl, rfl⟩ : event = first ∧ _ = rest := by simpa only [Prod.mk.injEq] using same
    have top := Heap.peek?_of_pop? found
    have ahead : ∀ other ∈ set.current.toList, other.before event = false := by
      intro other inside
      cases content : set.current.toList with
      | nil =>
        rw [content] at inside
        cases inside
      | cons head tail =>
        have peek : set.current.peek? = some head := by
          rw [set.current.peek?_eq_head?, content, List.head?_cons]
        rw [isCurrentNext, peek, top] at later
        have notBefore : head.before event = false := by simpa using later
        rw [content] at inside
        rcases List.mem_cons.mp inside with rfl | behind
        · exact notBefore
        · exact Scheduled.precedes_before.trans event head other notBefore
            (sound.first_current content other behind)
    obtain ⟨whole, after, kept⟩ := sound.pop_later found ahead
    exact ⟨whole, after, kept, rfl, rfl⟩

/-- Taking removes the first event of least time from the order of entry. -/
theorem Sound.inOrder_pop {set rest : EventSet α} (sound : set.Sound) {first : Scheduled α}
    (taken : set.pop? = some (first, rest)) :
    ∃ before after, set.inOrder = before ++ first :: after ∧ rest.inOrder = before ++ after ∧
      (∀ event ∈ before, first.time < event.time) ∧ ∀ event ∈ after, first.time ≤ event.time := by
  obtain ⟨whole, least, -, -, -⟩ := sound.pop taken
  have member : first ∈ set.inOrder := mem_inOrder.mpr (whole.mem_iff.mpr List.mem_cons_self)
  obtain ⟨before, after, split⟩ := List.append_of_mem member
  have sorted := sound.increasing
  rw [split] at sorted
  have content : (before ++ after).Perm rest.toList := by
    have same : (first :: (before ++ after)).Perm (first :: rest.toList) := by
      refine List.perm_middle.symm.trans ?_
      rw [← split]
      exact set.inOrder_perm.trans whole
    exact same.cons_inv
  have order : ∀ event ∈ before ++ after,
      first.time < event.time ∨ first.time = event.time ∧ first.serial ≤ event.serial := by
    intro event inside
    rw [← Scheduled.before_eq_false_iff]
    exact least event (content.mem_iff.mp inside)
  refine ⟨before, after, split, eq_inOrder content ?_, ?_, ?_⟩
  · exact sorted.sublist ((List.sublist_cons_self first after).append_left before)
  · intro event inside
    rcases order event (List.mem_append_left _ inside) with less | ⟨_, late⟩
    · exact less
    · have early := (List.pairwise_append.mp sorted).2.2 event inside first List.mem_cons_self
      omega
  · intro event inside
    rcases order event (List.mem_append_right _ inside) with less | ⟨same, _⟩
    · exact le_of_lt less
    · exact le_of_eq same

/-- There is something to take exactly when something waits. -/
theorem pop?_eq_none_iff (set : EventSet α) : set.pop? = none ↔ set.inOrder = [] := by
  rw [← List.length_eq_zero_iff, set.inOrder_perm.length_eq, List.length_eq_zero_iff, toList,
    List.append_eq_nil_iff]
  unfold pop? isCurrentNext
  rw [set.current.peek?_eq_head?]
  have shown := set.current.pop?_toList
  cases content : set.current.toList with
  | nil =>
    cases top : set.later.peek? with
    | none => cases heap : set.later <;> simp_all [Heap.peek?, Heap.pop?, Heap.toList]
    | some root =>
      obtain ⟨heap, taken⟩ := @Heap.pop?_isSome _ Scheduled.before _ _ top
      have some : set.later.toList ≠ [] := by
        rw [ne_eq, ← Heap.peek?_eq_none_iff, top]
        exact Option.some_ne_none root
      simp [taken, some]
  | cons head tail =>
    have taken : set.current.pop? ≠ none := by
      intro none
      simp [none, content] at shown
    cases top : set.later.peek? with
    | none => simp [taken]
    | some root =>
      obtain ⟨heap, popped⟩ := @Heap.pop?_isSome _ Scheduled.before _ _ top
      cases order : head.before root <;> simp [order, taken, popped]

/-- Where the next event waits in the queue of the last instant, it is the first one there. -/
theorem time_of_current (set : EventSet α) (next : set.isCurrentNext = true) :
    (set.pop?.map fun taken => taken.1.time) = set.current.peek?.map Scheduled.time := by
  have queue : set.current.pop?.map Prod.fst = set.current.peek? := by
    have shown := set.current.pop?_toList
    rw [set.current.peek?_eq_head?]
    cases content : set.current.toList with
    | nil => simpa [content] using shown
    | cons head tail =>
      rw [content, if_neg (List.cons_ne_nil head tail)] at shown
      obtain ⟨⟨event, rest⟩, found, same⟩ := Option.map_eq_some_iff.mp shown
      rw [found]
      exact congrArg List.head? same
  rw [pop?, if_pos next, ← queue, Option.map_map, Option.map_map]
  rfl

/-- Otherwise it is the first one of the heap. -/
theorem time_of_later (set : EventSet α) (next : set.isCurrentNext = false) :
    (set.pop?.map fun taken => taken.1.time) = set.later.peek?.map Scheduled.time := by
  have heap : (set.later.pop? Scheduled.before).map Prod.fst = set.later.peek? := by
    cases set.later <;> rfl
  rw [pop?, if_neg (by rw [next]; exact Bool.false_ne_true), ← heap, Option.map_map,
    Option.map_map]
  rfl

/-- The instant looked at is that of the event that is taken. -/
theorem nextTime?_eq (set : EventSet α) :
    set.nextTime? = set.pop?.map fun taken => taken.1.time := by
  rw [nextTime?]
  cases first : set.current.peek? with
  | none =>
    have next : set.isCurrentNext = false := by rw [isCurrentNext, first]
    rw [set.time_of_later next]
    cases set.later.peek? <;> rfl
  | some event =>
    cases top : set.later.peek? with
    | none =>
      have next : set.isCurrentNext = true := by rw [isCurrentNext, first, top]
      rw [set.time_of_current next, first]
      rfl
    | some root =>
      have next : set.isCurrentNext = event.before root := by rw [isCurrentNext, first, top]
      cases order : event.before root with
      | true =>
        rw [set.time_of_current (next.trans order), first]
        rw [Scheduled.before_eq_true_iff] at order
        exact congrArg some (min_eq_left (order.elim le_of_lt fun both => le_of_eq both.1))
      | false =>
        rw [set.time_of_later (next.trans order), top]
        rw [Scheduled.before_eq_false_iff] at order
        exact congrArg some (min_eq_right (order.elim le_of_lt fun both => le_of_eq both.1))

/-- The event that is taken waits, and none waits for an instant before it. -/
theorem Sound.first_of_pop {set rest : EventSet α} (sound : set.Sound) {first : Scheduled α}
    (popped : set.pop? = some (first, rest)) :
    first ∈ set.inOrder ∧ ∀ event ∈ set.inOrder, first.time ≤ event.time := by
  obtain ⟨before, after, split, -, early, late⟩ := sound.inOrder_pop popped
  rw [split]
  refine ⟨List.mem_append_cons_self, fun event inside => ?_⟩
  rcases List.mem_append.mp inside with ahead | inside
  · exact le_of_lt (early event ahead)
  · rcases List.mem_cons.mp inside with rfl | behind
    · exact le_refl _
    · exact late event behind

/-- No event waits for an instant before the one looked at. -/
theorem Sound.nextTime?_le {set : EventSet α} (sound : set.Sound) {time : Instant}
    (next : set.nextTime? = some time) : ∀ event ∈ set.inOrder, time ≤ event.time := by
  rw [nextTime?_eq] at next
  obtain ⟨⟨first, rest⟩, taken, rfl⟩ := Option.map_eq_some_iff.mp next
  exact (sound.first_of_pop taken).2

end EventSet

end Rally
