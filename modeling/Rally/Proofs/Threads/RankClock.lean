import Rally.Proofs.Threads.RankSteps
import Rally.Proofs.Time.Order
/-!
# The clock of a rank

On every rank the time goes on with the events that are taken, none of which is due before the last
one. What a rank schedules for itself is due now or later; what it lays out for other ranks is due
at the end of its window or later, since a link between two ranks takes at least as long as a window
is.
-/

namespace Rally

/-- A link joins two ranks where its ends differ by them. -/
theorem Link.crossesRanks_of_ne {link : Link} {side : Side}
    (differ : (link.endAt side.opposite).rank ≠ (link.endAt side).rank) :
    link.crossesRanks = true := by
  rw [crossesRanks, bne_iff_ne]
  cases side with
  | a => exact differ.symm
  | b => exact differ

/-- When an event is due, and what happens then. -/
def Scheduled.entry {α : Type} (event : Scheduled α) : Instant × α := (event.time, event.payload)

/-- When a parcel is due, and what is delivered then. -/
def Parcel.entry (parcel : Parcel) : Instant × Delivery := (parcel.time, parcel.delivery)

/-- Whether messages to other ranks, sent from an instant on, are due at a bound or later. -/
def Beyond (start : Instant) (bound : Option Instant) (links : Array Link) : Prop :=
  ∀ link ∈ links.toList, link.crossesRanks = true →
    ∃ last, bound = some last ∧ last ≤ start.saturatingAdd link.latency

namespace Rank

variable {C : Type} {within : Instant → Prop} {start : Instant} {bound : Option Instant}

/-- What the clock of a rank tells about its events and parcels in a window. -/
structure Timed (start : Instant) (bound : Option Instant) (rank : Rank C) : Prop where
  /-- The set of future events is in order. -/
  sound : rank.pending.Sound
  /-- The time is that of the last event taken. -/
  clock : rank.now = rank.pending.last
  /-- No event to come is due before the window. -/
  ahead : ∀ event ∈ rank.pending.inOrder, start ≤ event.time
  /-- No parcel is due before the end of the window. -/
  laid : ∀ parcel ∈ rank.outgoing, ∃ last, bound = some last ∧ last ≤ parcel.time

/-- The link that a configured port is bound to is one of those that the rank knows. -/
theorem Wired.mem_links {rank : Rank C} (wired : rank.Wired) {id : ComponentId} {slot : Slot C}
    {port : PortId} {binding : Binding} (owned : rank.slot? id = some slot)
    (bound : slot.binding? port = some binding) :
    rank.link binding.link ∈ rank.links.toList := by
  have inside := (wired.bound id slot port binding owned bound).1
  rw [link_eq (Array.getElem?_eq_getElem inside)]
  exact Array.getElem_mem_toList inside

/-- A link that takes a message to another rank joins two ranks. -/
theorem Wired.crosses {rank : Rank C} (wired : rank.Wired) {id : ComponentId} {slot : Slot C}
    {port : PortId} {binding : Binding} {message : Message} (owned : rank.slot? id = some slot)
    (bound : slot.binding? port = some binding)
    (away : (rank.receiver (delivery binding message)).rank ≠ rank.id) :
    (rank.link binding.link).crossesRanks = true := by
  have own := (wired.bound id slot port binding owned bound).2
  refine @Link.crossesRanks_of_ne _ binding.side ?_
  rw [own]
  exact away

/-- An act that takes no event keeps the clock, what is scheduled, and what is laid out in time. -/
theorem Timed.act {first last : Rank C} {deeds : List Deed} (timed : first.Timed start bound)
    (act : Act (fun _ => False) first deeds last) (wired : first.Wired)
    (beyond : Beyond start bound first.links) (awake : start ≤ first.now) :
    last.Timed start bound ∧ last.now = first.now ∧
      ∀ time before, .scheduled time before ∈ deeds → before ≤ time := by
  cases act with
  | wrote | absorbed =>
    exact ⟨⟨timed.sound, timed.clock, timed.ahead, timed.laid⟩, rfl,
      fun time before inside => (List.not_mem_nil inside).elim⟩
  | started => exact ⟨timed, rfl, fun time before inside => by simp at inside⟩
  | took event pending taken allowed => exact allowed.elim
  | sent id slot port binding message owned bound =>
    have later : first.now ≤ first.due binding := Duration.le_saturatingAdd _ _
    have due : first.pending.last ≤ first.due binding := by
      rw [← timed.clock]
      exact later
    by_cases here : (first.receiver (delivery binding message)).rank = first.id
    · rw [send_of_eq here]
      refine ⟨⟨timed.sound.add due _, ?_, ?_, timed.laid⟩, rfl, ?_⟩
      · exact timed.clock.trans (EventSet.last_add _ _ _).symm
      · intro event inside
        rw [EventSet.inOrder_add timed.sound, List.mem_append, List.mem_singleton] at inside
        rcases inside with old | rfl
        · exact timed.ahead event old
        · exact le_trans awake later
      · intro time before inside
        rw [sendDeeds, if_pos here] at inside
        simp only [List.mem_cons, reduceCtorEq, false_or, List.not_mem_nil, or_false,
          Deed.scheduled.injEq] at inside
        obtain ⟨rfl, rfl⟩ := inside
        exact due
    · rw [send_of_ne here]
      refine ⟨⟨timed.sound, timed.clock, timed.ahead, ?_⟩, rfl, ?_⟩
      · intro parcel inside
        rcases List.mem_cons.mp inside with rfl | old
        · obtain ⟨last, ends, reaches⟩ := beyond _ (wired.mem_links owned bound)
            (wired.crosses owned bound here)
          exact ⟨last, ends, le_trans reaches
            (Duration.saturatingAdd_le_saturatingAdd awake (le_refl _))⟩
        · exact timed.laid parcel old
      · intro time before inside
        rw [sendDeeds, if_neg here] at inside
        simp at inside

/-- A course that takes no event keeps the clock, what is scheduled, and what is laid out in time. -/
theorem Timed.course {first last : Rank C} {deeds : List Deed} (timed : first.Timed start bound)
    (course : Course (fun _ => False) first deeds last) (wired : first.Wired)
    (beyond : Beyond start bound first.links) (awake : start ≤ first.now) :
    last.Timed start bound ∧ last.now = first.now ∧
      ∀ time before, .scheduled time before ∈ deeds → before ≤ time := by
  induction course with
  | refl => exact ⟨timed, rfl, fun time before inside => (List.not_mem_nil inside).elim⟩
  | behind former act ih =>
    obtain ⟨middle, clock, scheduled⟩ := ih
    obtain ⟨final, same, more⟩ := middle.act act (former.keeps_wired wired)
      (by rw [former.keeps_links.2]; exact beyond) (by rw [clock]; exact awake)
    refine ⟨final, same.trans clock, fun time before inside => ?_⟩
    rcases List.mem_append.mp inside with old | new
    · exact scheduled time before old
    · exact more time before new

/-- A course that takes no event dispatches none, and setup hooks that it calls read the time. -/
theorem Course.deeds_still {first last : Rank C} {deeds : List Deed}
    (course : Course (fun _ => False) first deeds last) :
    last.now = first.now ∧ deeds.filterMap Deed.event? = [] ∧
      ∀ id now, .started id now ∈ deeds → now = first.now := by
  induction course with
  | refl => exact ⟨rfl, rfl, fun id now inside => (List.not_mem_nil inside).elim⟩
  | @behind middle _ _ more former act ih =>
    obtain ⟨clock, none, started⟩ := ih
    have acted : ∀ last : Rank C, Act (fun _ => False) middle more last →
        last.now = middle.now ∧ more.filterMap Deed.event? = [] ∧
          ∀ id now, .started id now ∈ more → now = middle.now := by
      intro last act
      cases act with
      | wrote | absorbed =>
        exact ⟨rfl, rfl, fun id now inside => (List.not_mem_nil inside).elim⟩
      | started id slot owned =>
        refine ⟨rfl, rfl, fun other now inside => ?_⟩
        rw [List.mem_singleton, Deed.started.injEq] at inside
        exact inside.2
      | took event pending taken allowed => exact allowed.elim
      | sent id slot port binding message owned bound =>
        by_cases here : (middle.receiver (delivery binding message)).rank = middle.id
        · rw [send_of_eq here, sendDeeds, if_pos here]
          exact ⟨rfl, rfl, fun id now inside => by simp at inside⟩
        · rw [send_of_ne here, sendDeeds, if_neg here]
          exact ⟨rfl, rfl, fun id now inside => by simp at inside⟩
    obtain ⟨same, still, more⟩ := acted _ act
    refine ⟨same.trans clock, by rw [List.filterMap_append, none, still]; rfl, fun id now inside => ?_⟩
    rcases List.mem_append.mp inside with old | new
    · exact started id now old
    · exact (more id now new).trans clock

/-- Handing messages to links calls no setup hook. -/
theorem started_notMem_flushDeeds (component other : ComponentId) (now : Instant) (slot : Slot C)
    (sends : List (PortId × Message)) (rank : Rank C) :
    Deed.started other now ∉ flushDeeds component slot sends rank := by
  induction sends generalizing rank with
  | nil => exact List.not_mem_nil
  | cons first rest ih =>
    obtain ⟨port, message⟩ := first
    rw [flushDeeds]
    split
    · intro inside
      rcases List.mem_append.mp inside with old | new
      · rw [sendDeeds] at old
        split at old <;> simp at old
      · exact ih _ new
    · exact List.not_mem_nil

/-- Taking the next event moves the clock to it. -/
theorem Timed.take {rank : Rank C} (timed : rank.Timed start bound) {event : Scheduled Delivery}
    {pending : EventSet Delivery} (taken : rank.pending.pop? = some (event, pending)) :
    (rank.take event pending).Timed start bound ∧ start ≤ event.time ∧
      rank.pending.last ≤ event.time ∧ pending.last = event.time := by
  obtain ⟨whole, -, sound, last, -⟩ := timed.sound.pop taken
  have inside : event ∈ rank.pending.inOrder :=
    EventSet.mem_inOrder.mpr (whole.mem_iff.mpr List.mem_cons_self)
  refine ⟨⟨sound, last.symm, fun other still => ?_, timed.laid⟩, timed.ahead event inside,
    timed.sound.last_le event (EventSet.mem_inOrder.mp inside), last⟩
  refine timed.ahead other (EventSet.mem_inOrder.mpr (whole.mem_iff.mpr ?_))
  exact List.mem_cons_of_mem event (EventSet.mem_inOrder.mp still)

/-- Scheduling parcels that are not due before the last event taken adds them in their order. -/
theorem foldl_add {pending : EventSet Delivery} (sound : pending.Sound) (parcels : List Parcel)
    (due : ∀ parcel ∈ parcels, pending.last ≤ parcel.time) :
    let later := parcels.foldl (fun set parcel => set.add parcel.time parcel.delivery) pending
    later.Sound ∧ later.last = pending.last ∧
      later.inOrder.map Scheduled.entry =
        pending.inOrder.map Scheduled.entry ++ parcels.map Parcel.entry ∧
      ∀ time before, .scheduled time before ∈ addDeeds parcels pending → before ≤ time := by
  induction parcels generalizing pending with
  | nil => exact ⟨sound, rfl, (List.append_nil _).symm, fun _ _ inside => by cases inside⟩
  | cons parcel rest ih =>
    have first := due parcel List.mem_cons_self
    obtain ⟨final, last, content, scheduled⟩ := @ih (pending.add parcel.time parcel.delivery)
      (sound.add first _) fun other inside => by
        rw [EventSet.last_add]
        exact due other (List.mem_cons_of_mem parcel inside)
    refine ⟨final, last.trans (EventSet.last_add _ _ _), ?_, fun time before inside => ?_⟩
    · rw [List.foldl_cons, content, EventSet.inOrder_add sound, List.map_append, List.append_assoc]
      rfl
    · rw [addDeeds] at inside
      rcases List.mem_cons.mp inside with same | inside
      · rw [Deed.scheduled.injEq] at same
        rw [same.1, same.2]
        exact first
      · exact scheduled time before inside

/-- Scheduling parcels calls no hook. -/
theorem addDeeds_still (parcels : List Parcel) (pending : EventSet Delivery) :
    (addDeeds parcels pending).filterMap Deed.event? = [] ∧
      ∀ id now, .started id now ∉ addDeeds parcels pending := by
  refine ⟨filterMap_addDeeds (fun _ _ => rfl) parcels pending, fun id now inside => ?_⟩
  obtain ⟨time, last, same⟩ := eq_scheduled_of_mem inside
  cases same

/-- A rank that schedules parcels due behind its window keeps its clock. -/
theorem Timed.receive {rank : Rank C} (timed : rank.Timed start bound) {parcels : List Parcel}
    (due : ∀ parcel ∈ parcels, rank.pending.last ≤ parcel.time ∧ start ≤ parcel.time) :
    (rank.receive parcels).Timed start bound ∧
      (rank.receive parcels).pending.last = rank.pending.last ∧
      ∀ time before, .scheduled time before ∈ rank.receiveDeeds parcels → before ≤ time := by
  have sorted : ∀ parcel ∈ parcels.mergeSort Parcel.le,
      rank.pending.last ≤ parcel.time ∧ start ≤ parcel.time :=
    fun parcel inside => due parcel (List.mem_mergeSort.mp inside)
  obtain ⟨sound, last, content, scheduled⟩ :=
    foldl_add timed.sound _ fun parcel inside => (sorted parcel inside).1
  refine ⟨⟨sound, timed.clock.trans last.symm, fun event inside => ?_, timed.laid⟩, last, scheduled⟩
  have there : event.entry ∈ (rank.receive parcels).pending.inOrder.map Scheduled.entry :=
    List.mem_map_of_mem inside
  rw [Rank.receive, content, List.mem_append] at there
  rcases there with old | new
  · obtain ⟨other, former, same⟩ := List.mem_map.mp old
    rw [← (Prod.mk.inj same).1]
    exact timed.ahead other former
  · obtain ⟨parcel, former, same⟩ := List.mem_map.mp new
    rw [← (Prod.mk.inj same).1]
    exact (sorted parcel former).2

/-- What taking an event tells: it is dispatched to its receiver, which reads the time of the
event. -/
theorem takeDeeds_eq (event : Scheduled Delivery) (pending : EventSet Delivery) (rank : Rank C) :
    rank.takeDeeds event pending = [] ∨ ∃ arrival,
      rank.takeDeeds event pending = [.dispatched event arrival] ∧ arrival.now = event.time := by
  rw [takeDeeds]
  split
  · exact Or.inl rfl
  · exact Or.inr ⟨_, rfl, rfl⟩

/-- Behind the event that it takes, a rank that dispatches takes no other one. -/
theorem dispatch_behind_take [Component C] (event : Scheduled Delivery)
    (pending : EventSet Delivery) (rank : Rank C) :
    ∃ more, rank.dispatchDeeds event pending = rank.takeDeeds event pending ++ more ∧
      Course (fun _ => False) (rank.take event pending) more
        (dispatch event { rank with pending }).1 ∧
      ∀ id now, .started id now ∉ more := by
  refine ⟨_, rfl, ?_, ?_⟩
  · rw [dispatch_eq]
    cases owned : rank.slot? (rank.receiver event.payload).component with
    | none => exact .refl _
    | some slot => exact @deliver_course _ _ _ _ _ (rank.take event pending) owned _ _
  · intro id now inside
    cases owned : rank.slot? (rank.receiver event.payload).component with
    | none =>
      rw [owned] at inside
      cases inside
    | some slot =>
      simp only [owned, deliverDeeds] at inside
      split at inside
      · split at inside
        · exact started_notMem_flushDeeds _ id now _ _ _ inside
        · cases inside
      · cases inside

end Rank

end Rally
