import Rally.Proofs.Queue.EntryOrder
/-!
# Event sets against a list

A waiting list holds events in the order in which they entered, and gives away the one of least time, of
several such events the one that entered first. As long as no event is added that is due before the last one
taken, an event set answers like such a list, although it keeps events of the last instant in a queue of
their own: all events of that instant that are still in its heap entered before.
-/

namespace Rally

/-- A call on a set of events. -/
inductive EventCall (α : Type) where
  /-- An event is added. -/
  | add (time : Instant) (payload : α)
  /-- The next event is taken. -/
  | take

/-- Events in the order in which they entered. -/
structure WaitingList (α : Type) where
  /-- The events that wait. -/
  events : List (Scheduled α) := []
  /-- The instant of the last event taken. -/
  last : Instant := Instant.zero
  /-- The number of events that ever entered. -/
  entered : Nat := 0

namespace WaitingList

variable {α : Type}

/-- Whether an event is due before another one, or at the same time and has no greater number. -/
def leads (event other : Scheduled α) : Bool :=
  decide (event.time < other.time ∨ event.time = other.time ∧ event.serial ≤ other.serial)

/-- The event of least time, of several ones that with the least number. -/
def first? (list : WaitingList α) : Option (Scheduled α) :=
  list.events.find? fun event => list.events.all fun other => leads event other

/-- Makes a call, and tells the event that it takes. -/
def call (list : WaitingList α) : EventCall α → WaitingList α × Option (Scheduled α)
  | .add time payload =>
    ({ list with
      events := list.events ++ [⟨time, list.entered, payload⟩], entered := list.entered + 1 }, none)
  | .take =>
    match list.first? with
    | none => (list, none)
    | some event =>
      ({ list with
        events := list.events.eraseP fun other => other.serial == event.serial
        last := event.time }, some event)

/-- Makes calls, one after the other, and tells what each of them takes. -/
def callAll : List (EventCall α) → WaitingList α → WaitingList α × List (Option (Scheduled α))
  | [], list => (list, [])
  | call :: rest, list =>
    let (middle, taken) := list.call call
    let (last, others) := callAll rest middle
    (last, taken :: others)

/-- Whether a call adds no event that is due before the last one taken. -/
def Admits (list : WaitingList α) : EventCall α → Prop
  | .add time _ => list.last ≤ time
  | .take => True

/-- Whether none of some calls does. -/
def AdmitsAll : List (EventCall α) → WaitingList α → Prop
  | [], _ => True
  | call :: rest, list => list.Admits call ∧ AdmitsAll rest (list.call call).1

instance (list : WaitingList α) : DecidablePred list.Admits
  | .add time _ => inferInstanceAs (Decidable (list.last ≤ time))
  | .take => isTrue trivial

instance decidableAdmitsAll :
    (calls : List (EventCall α)) → (list : WaitingList α) → Decidable (AdmitsAll calls list)
  | [], _ => isTrue trivial
  | call :: rest, list =>
    have := decidableAdmitsAll rest (list.call call).1
    inferInstanceAs (Decidable (list.Admits call ∧ AdmitsAll rest (list.call call).1))

end WaitingList

namespace EventSet

variable {α : Type} {set : EventSet α} {list : WaitingList α}

/-- Makes a call, and tells the event that it takes. -/
def call (set : EventSet α) : EventCall α → EventSet α × Option (Scheduled α)
  | .add time payload => (set.add time payload, none)
  | .take =>
    match set.pop? with
    | none => (set, none)
    | some (event, rest) => (rest, some event)

/-- Makes calls, one after the other, and tells what each of them takes. -/
def callAll : List (EventCall α) → EventSet α → EventSet α × List (Option (Scheduled α))
  | [], set => (set, [])
  | call :: rest, set =>
    let (middle, taken) := set.call call
    let (last, others) := callAll rest middle
    (last, taken :: others)

/-- No event waits where there is none in the order of entry. -/
theorem isEmpty_eq (set : EventSet α) : set.isEmpty = set.inOrder.isEmpty := by
  have heap : set.later.isEmpty = set.later.toList.isEmpty := by cases set.later <;> rfl
  rw [isEmpty, heap, Fifo.isEmpty_eq, Bool.eq_iff_iff, Bool.and_eq_true, List.isEmpty_iff,
    List.isEmpty_iff, List.isEmpty_iff, ← List.length_eq_zero_iff (l := set.inOrder),
    set.inOrder_perm.length_eq, toList, List.length_eq_zero_iff, List.append_eq_nil_iff, and_comm]

/-- Whether the events of the last instant that wait in the heap entered before all those that wait in the
queue of that instant. -/
def Layered (set : EventSet α) : Prop :=
  ∀ event ∈ set.later.toList, event.time = set.last →
    ∀ other ∈ set.current.toList, event.serial < other.serial

/-- An event that is added joins the heap only where it is due at another instant, and the queue behind
all events. -/
theorem Layered.add (layered : set.Layered) (sound : set.Sound) (time : Instant) (payload : α) :
    (set.add time payload).Layered := by
  by_cases now : time = set.last
  · rw [add_of_eq now]
    intro event inside due other queued
    rw [Fifo.toList_push, List.mem_append, List.mem_singleton] at queued
    rcases queued with old | rfl
    · exact layered event inside due other old
    · exact sound.serial_lt event (List.mem_append_right _ inside)
  · rw [add_of_ne now]
    intro event inside due other queued
    rcases List.mem_cons.mp ((Heap.toList_push sound.single _).mem_iff.mp inside) with rfl | old
    · exact absurd due now
    · exact layered event old due other queued

/-- What the queue of the last instant and the heap hold of a set from which an event was taken. -/
theorem Sound.parts_pop (sound : set.Sound) {event : Scheduled α} {rest : EventSet α}
    (taken : set.pop? = some (event, rest)) :
    (∀ other ∈ rest.later.toList, other ∈ set.later.toList) ∧
      ∀ other ∈ rest.current.toList, other ∈ set.current.toList := by
  unfold pop? at taken
  split at taken
  · obtain ⟨⟨first, queue⟩, found, same⟩ := Option.map_eq_some_iff.mp taken
    obtain ⟨rfl, rfl⟩ := Prod.mk.inj same
    refine ⟨fun other inside => inside, fun other inside => ?_⟩
    have content := set.current.pop?_toList
    rw [found] at content
    by_cases none : set.current.toList = []
    · simp [none] at content
    · have split : set.current.toList = first :: queue.toList := by
        simpa [none] using content.symm
      exact split ▸ List.mem_cons_of_mem _ inside
  · obtain ⟨⟨first, heap⟩, found, same⟩ := Option.map_eq_some_iff.mp taken
    obtain ⟨rfl, rfl⟩ := Prod.mk.inj same
    obtain ⟨content, -, -⟩ :=
      Heap.pop?_rest Scheduled.precedes_before sound.single sound.ordered found
    exact ⟨fun other inside => content.mem_iff.mpr (List.mem_cons_of_mem _ inside),
      fun other inside => inside⟩

/-- Taking an event leaves the others where they are; where this brings another instant, nothing waits in
the queue of the last one. -/
theorem Layered.pop (layered : set.Layered) (sound : set.Sound) {event : Scheduled α}
    {rest : EventSet α} (taken : set.pop? = some (event, rest)) : rest.Layered := by
  obtain ⟨-, -, kept, -, -⟩ := sound.pop taken
  obtain ⟨heap, queue⟩ := sound.parts_pop taken
  intro other inside due behind queued
  have same : set.last = rest.last :=
    (sound.current_time behind (queue behind queued)).symm.trans (kept.current_time behind queued)
  exact layered other (heap other inside) (due.trans same.symm) behind (queue behind queued)

/-- The event that is taken from a sound set is the one that a list of its events gives away. -/
theorem Sound.first_eq (sound : set.Sound) (same : set.inOrder = list.events) {event : Scheduled α}
    {rest : EventSet α} (taken : set.pop? = some (event, rest)) :
    list.first? = some event ∧
      rest.inOrder = list.events.eraseP fun other => other.serial == event.serial := by
  obtain ⟨before, after, split, left, early, late⟩ := sound.inOrder_pop taken
  have sorted := sound.increasing
  rw [split, List.pairwise_append, List.pairwise_cons] at sorted
  obtain ⟨-, ⟨behind, -⟩, ahead⟩ := sorted
  rw [split] at same
  constructor
  · rw [WaitingList.first?, ← same, List.find?_eq_some_iff_append]
    refine ⟨List.all_eq_true.mpr fun other inside => ?_, before, after, rfl, fun other inside => ?_⟩
    · rw [WaitingList.leads, decide_eq_true_eq]
      rcases List.mem_append.mp inside with inside | inside
      · exact Or.inl (early other inside)
      · rcases List.mem_cons.mp inside with rfl | inside
        · exact Or.inr ⟨rfl, Nat.le_refl _⟩
        · exact (lt_or_eq_of_le (late other inside)).imp id fun now =>
            ⟨now, Nat.le_of_lt (behind other inside)⟩
    · -- an event in front is due later, so it does not lead the one that is taken
      have later := early other inside
      refine Bool.not_eq_true' _ |>.mpr (List.all_eq_false.mpr
        ⟨event, List.mem_append_cons_self, ?_⟩)
      rw [WaitingList.leads, decide_eq_true_eq]
      rintro (less | ⟨now, -⟩)
      · exact lt_asymm later less
      · exact lt_irrefl _ (now ▸ later)
  · have apart : ∀ other ∈ before, ¬ (other.serial == event.serial) = true :=
      fun other inside found =>
        absurd (beq_iff_eq.mp found) (Nat.ne_of_lt (ahead other inside event List.mem_cons_self))
    have own : (event.serial == event.serial) = true := beq_self_eq_true _
    rw [left, ← same, List.eraseP_append_right _ apart, List.eraseP_cons, own]
    rfl

/-- Whether an event set and a list hold the same events, and the set is as it should be. -/
structure Mirrors (set : EventSet α) (list : WaitingList α) : Prop where
  /-- The set is sound. -/
  sound : set.Sound
  /-- What waits in its heap entered before what waits in its queue. -/
  layered : set.Layered
  /-- The list holds its events in the order of entry. -/
  events : set.inOrder = list.events
  /-- The last event taken was the same. -/
  last : set.last = list.last
  /-- As many events entered. -/
  entered : set.entered = list.entered

/-- A set and a list that hold the same take the same event with a call, and hold the same behind it. -/
theorem Mirrors.call (mirrors : set.Mirrors list) {call : EventCall α} (admits : list.Admits call) :
    (set.call call).1.Mirrors (list.call call).1 ∧ (set.call call).2 = (list.call call).2 := by
  obtain ⟨sound, layered, events, last, entered⟩ := mirrors
  cases call with
  | add time payload =>
    refine ⟨⟨sound.add (last ▸ admits) payload, layered.add sound time payload, ?_, ?_, ?_⟩, rfl⟩
    · exact (inOrder_add sound time payload).trans (by rw [events, entered]; rfl)
    · exact (last_add set time payload).trans last
    · exact (entered_add set time payload).trans (congrArg (· + 1) entered)
  | take =>
    cases taken : set.pop? with
    | none =>
      have empty : list.first? = none := by
        rw [WaitingList.first?, ← events, (set.pop?_eq_none_iff).mp taken]
        rfl
      simp only [EventSet.call, WaitingList.call, taken, empty]
      exact ⟨⟨sound, layered, events, last, entered⟩, trivial⟩
    | some answer =>
      obtain ⟨event, rest⟩ := answer
      obtain ⟨first, left⟩ := sound.first_eq events taken
      obtain ⟨-, -, kept, now, count⟩ := sound.pop taken
      simp only [EventSet.call, WaitingList.call, taken, first]
      exact ⟨⟨kept, layered.pop sound taken, left, now, count.trans entered⟩, trivial⟩

/-- A set and a list that hold the same take the same events with any calls. -/
theorem Mirrors.callAll (mirrors : set.Mirrors list) {calls : List (EventCall α)}
    (admits : WaitingList.AdmitsAll calls list) :
    (callAll calls set).1.Mirrors (WaitingList.callAll calls list).1 ∧
      (callAll calls set).2 = (WaitingList.callAll calls list).2 := by
  induction calls generalizing set list with
  | nil => exact ⟨mirrors, rfl⟩
  | cons call rest ih =>
    obtain ⟨next, taken⟩ := mirrors.call admits.1
    obtain ⟨last, others⟩ := ih next admits.2
    exact ⟨last, congrArg₂ List.cons taken others⟩

/-- Whether an event set shows what a list holds. -/
structure Shows (set : EventSet α) (list : WaitingList α) : Prop where
  /-- The next event is the one of least time, of several ones that with the least number. -/
  next : set.pop?.map Prod.fst = list.first?
  /-- The instant looked at is the time of this event. -/
  time : set.nextTime? = list.first?.map Scheduled.time
  /-- There are as many events. -/
  size : set.size = list.events.length
  /-- There is none where the list is empty. -/
  isEmpty : set.isEmpty = list.events.isEmpty
  /-- The queue of the last instant holds events of that instant. -/
  current : ∀ event ∈ set.current.toList, event ∈ list.events ∧ event.time = list.last
  /-- It holds them in the order in which they entered. -/
  queued : set.current.toList.Pairwise fun event other => event.serial < other.serial
  /-- The events of this instant that are still in the heap entered before them. -/
  layered : ∀ event ∈ set.later.toList, event.time = list.last →
    ∀ other ∈ set.current.toList, event.serial < other.serial

/-- A set shows what a list holds that holds the same. -/
theorem Mirrors.shows (mirrors : set.Mirrors list) : set.Shows list := by
  obtain ⟨sound, layered, events, last, -⟩ := mirrors
  have next : set.pop?.map Prod.fst = list.first? := by
    cases taken : set.pop? with
    | none =>
      rw [WaitingList.first?, ← events, (set.pop?_eq_none_iff).mp taken]
      rfl
    | some answer => exact (sound.first_eq events taken).1.symm
  refine ⟨next, ?_, ?_, ?_, ?_, ?_, ?_⟩
  · rw [nextTime?_eq, ← next, Option.map_map]
    rfl
  · rw [size_eq_length, events]
  · rw [isEmpty_eq, events]
  · intro event inside
    refine ⟨?_, last ▸ sound.current_time event inside⟩
    rw [← events, mem_inOrder]
    exact List.mem_append_left _ inside
  · exact sound.queued
  · rw [← last]
    exact layered

/-- An event set answers all calls as a list does that always gives away its event of least time and, of
several ones, of least number, as long as no event is added that is due before the last one taken. -/
theorem shows_of_calls (calls : List (EventCall α)) (admits : WaitingList.AdmitsAll calls {}) :
    (callAll calls {}).2 = (WaitingList.callAll calls {}).2 ∧
      (callAll calls {}).1.Shows (WaitingList.callAll calls {}).1 := by
  have empty : ({} : EventSet α).Mirrors {} :=
    ⟨sound_empty, fun _ inside => absurd inside List.not_mem_nil, inOrder_empty, rfl, rfl⟩
  obtain ⟨mirrors, answers⟩ := empty.callAll admits
  exact ⟨answers, mirrors.shows⟩

/-- Of two events of one second, one is taken; a third one that is added for this second joins the queue, and
the second one leaves the heap before it. -/
theorem shows_of_calls_ties :
    let second : Instant := ⟨1, 0, by decide, by decide⟩
    let calls : List (EventCall Nat) :=
      [.add second 0, .add second 1, .take, .add second 2, .take, .take, .take]
    WaitingList.AdmitsAll calls {} ∧
      (callAll calls {}).2.map (Option.map Scheduled.payload) =
        [none, none, some 0, none, some 1, some 2, none] ∧
      (callAll calls {}).2 = (WaitingList.callAll calls {}).2 ∧
      (callAll calls {}).1.Shows (WaitingList.callAll calls {}).1 := by
  intro second calls
  have admits : WaitingList.AdmitsAll calls {} := by decide
  exact ⟨admits, by decide, shows_of_calls calls admits⟩

end EventSet

end Rally
