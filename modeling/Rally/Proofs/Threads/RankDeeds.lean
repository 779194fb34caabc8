import Rally.Simulation.Run
/-!
# What happens on a rank

A rank is observed through its deeds: setup hooks that are called, messages handed to links, events
that enter the set of future events, and messages that are dispatched. The deeds of an operation are
read off beside it, by a function of the same shape. Every operation of a rank is a course of a few
kinds of acts, so what each act preserves holds behind every operation.
-/

namespace Rally

/-- A message that a component hands to a link. -/
structure Handing where
  /-- The sending component. -/
  component : ComponentId
  /-- The port that it sends on. -/
  port : PortId
  /-- The simulated time. -/
  now : Instant
  /-- The message. -/
  message : Message
  deriving DecidableEq

/-- A message that is dispatched to a component. -/
structure Arrival where
  /-- The receiving component. -/
  component : ComponentId
  /-- The port that it receives on. -/
  port : PortId
  /-- The time that the component reads. -/
  now : Instant
  /-- The message. -/
  message : Message
  deriving DecidableEq

/-- Something that happens on a rank. -/
inductive Deed where
  /-- A setup hook is called and reads a time. -/
  | started (component : ComponentId) (now : Instant)
  /-- A message is handed to a link at a side. -/
  | handed (link : LinkId) (side : Side) (handing : Handing)
  /-- An event enters the set of future events, whose last event taken was due at an instant. -/
  | scheduled (time last : Instant)
  /-- An event is dispatched. -/
  | dispatched (event : Scheduled Delivery) (arrival : Arrival)

namespace Deed

/-- The message that a deed hands to a link at a side. -/
def handing? (link : LinkId) (side : Side) : Deed → Option Handing
  | handed otherLink otherSide handing =>
    if otherLink = link ∧ otherSide = side then some handing else none
  | _ => none

/-- The message from a side of a link that a deed dispatches. -/
def arrival? (link : LinkId) (side : Side) : Deed → Option Arrival
  | dispatched event arrival =>
    if event.payload.link = link ∧ event.payload.arrival = side.opposite then some arrival else none
  | _ => none

/-- The event that a deed dispatches. -/
def event? : Deed → Option (Scheduled Delivery)
  | dispatched event _ => some event
  | _ => none

end Deed

namespace Rank

variable {C : Type}

/-- The end of a link that a delivery is for. -/
def receiver (rank : Rank C) (delivery : Delivery) : LinkEnd :=
  (rank.link delivery.link).endAt delivery.arrival

/-- The instant at which a message that is sent now arrives. -/
def due (rank : Rank C) (binding : Binding) : Instant :=
  rank.now.saturatingAdd (rank.link binding.link).latency

/-- What a message becomes behind a link. -/
def delivery (binding : Binding) (message : Message) : Delivery :=
  ⟨binding.link, binding.side.opposite, message⟩

/-- Counts a message handed to a link. -/
def countSent (rank : Rank C) (binding : Binding) : Rank C :=
  { rank with
    traffic := rank.traffic.modify binding.link fun traffic => traffic.send binding.side }

/-- A message for a component of the same rank is scheduled. -/
theorem send_of_eq {rank : Rank C} {binding : Binding} {message : Message}
    (here : (rank.receiver (delivery binding message)).rank = rank.id) :
    rank.send binding message = { rank.countSent binding with
      pending := rank.pending.add (rank.due binding) (delivery binding message) } :=
  if_pos here

/-- A message for a component of another rank is laid out. -/
theorem send_of_ne {rank : Rank C} {binding : Binding} {message : Message}
    (away : (rank.receiver (delivery binding message)).rank ≠ rank.id) :
    rank.send binding message = { rank.countSent binding with
      outgoing := ⟨(rank.receiver (delivery binding message)).rank, rank.id, rank.shipped,
        rank.due binding, delivery binding message⟩ :: rank.outgoing
      shipped := rank.shipped + 1 } :=
  if_neg away

/-- The deeds of handing a message to a link. -/
def sendDeeds (id : ComponentId) (port : PortId) (binding : Binding) (message : Message)
    (rank : Rank C) : List Deed :=
  .handed binding.link binding.side ⟨id, port, rank.now, message⟩ ::
    if (rank.receiver (delivery binding message)).rank = rank.id then
      [.scheduled (rank.due binding) rank.pending.last]
    else []

/-- The deeds of handing the messages of a hook to the links. -/
def flushDeeds (id : ComponentId) (slot : Slot C) : List (PortId × Message) → Rank C → List Deed
  | [], _ => []
  | (port, message) :: rest, rank =>
    match slot.binding? port with
    | some binding =>
      rank.sendDeeds id port binding message ++
        flushDeeds id slot rest (rank.send binding message)
    | none => []

/-- Takes an event out of the future and counts it. -/
def take (event : Scheduled Delivery) (pending : EventSet Delivery) (rank : Rank C) : Rank C :=
  { rank with
    pending
    dispatched := rank.dispatched + 1
    now := event.time
    lastTime := event.time
    traffic := match rank.slot? (rank.receiver event.payload).component with
      | none => rank.traffic
      | some _ => rank.traffic.modify event.payload.link fun traffic =>
          traffic.deliver event.payload.arrival.opposite }

/-- The deeds of taking an event out of the future. -/
def takeDeeds (event : Scheduled Delivery) (pending : EventSet Delivery) (rank : Rank C) :
    List Deed :=
  let receiver := rank.receiver event.payload
  match rank.slot? receiver.component with
  | none => []
  | some slot =>
    let context := (rank.take event pending).context slot
    [.dispatched event ⟨receiver.component, receiver.port, context.now, event.payload.message⟩]

/-- The deeds of scheduling deliveries. -/
def addDeeds : List Parcel → EventSet Delivery → List Deed
  | [], _ => []
  | parcel :: rest, set =>
    .scheduled parcel.time set.last :: addDeeds rest (set.add parcel.time parcel.delivery)

/-- The deeds of scheduling deliveries from other ranks. -/
def receiveDeeds (parcels : List Parcel) (rank : Rank C) : List Deed :=
  addDeeds (parcels.mergeSort Parcel.le) rank.pending

/-- To schedule deliveries does nothing else. -/
theorem eq_scheduled_of_mem {parcels : List Parcel} {set : EventSet Delivery} {deed : Deed}
    (inside : deed ∈ addDeeds parcels set) : ∃ time last, deed = .scheduled time last := by
  induction parcels generalizing set with
  | nil => cases inside
  | cons parcel rest ih =>
    rcases List.mem_cons.mp inside with rfl | later
    · exact ⟨_, _, rfl⟩
    · exact ih later

/-- What is told by other deeds alone is not told by these. -/
theorem filterMap_addDeeds {α : Type} {tells : Deed → Option α}
    (silent : ∀ time last, tells (.scheduled time last) = none) (parcels : List Parcel)
    (set : EventSet Delivery) : (addDeeds parcels set).filterMap tells = [] := by
  refine List.filterMap_eq_nil_iff.mpr fun deed inside => ?_
  obtain ⟨time, last, rfl⟩ := eq_scheduled_of_mem inside
  exact silent time last

/-- The deeds behind the answer of a hook. -/
def reactionDeeds (id : ComponentId) (slot : Slot C) (reaction : Reaction C) (rank : Rank C) :
    List Deed :=
  flushDeeds id slot reaction.sends (rank.absorb id slot reaction)

section Hooks

variable [Component C]

/-- The deeds of the setup of a position. -/
def setupDeeds (id : ComponentId) (rank : Rank C) : List Deed :=
  match rank.slot? id with
  | none => []
  | some slot =>
    let context := rank.context slot
    let reaction := Component.setup slot.component context
    .started id context.now ::
      match reaction.outcome with
      | .panicked _ => []
      | _ => rank.reactionDeeds id slot reaction

/-- The deeds of handing a message to its receiver. -/
def deliverDeeds (id : ComponentId) (slot : Slot C) (port : PortId) (message : Message)
    (rank : Rank C) : List Deed :=
  if slot.receives port then
    let reaction := Component.handle slot.component (rank.context slot) port message
    match reaction.outcome with
    | .completed => rank.reactionDeeds id slot reaction
    | _ => []
  else []

/-- The deeds of dispatching an event. -/
def dispatchDeeds (event : Scheduled Delivery) (pending : EventSet Delivery) (rank : Rank C) :
    List Deed :=
  let receiver := rank.receiver event.payload
  rank.takeDeeds event pending ++
    match rank.slot? receiver.component with
    | none => []
    | some slot =>
      deliverDeeds receiver.component slot receiver.port event.payload.message
        (rank.take event pending)

end Hooks

/-- One act of a rank, with its deeds, where events may be taken at certain instants alone. -/
inductive Act (within : Instant → Prop) : Rank C → List Deed → Rank C → Prop where
  /-- Log lines are written. -/
  | wrote (rank : Rank C) (journal : Journal) : Act within rank [] { rank with journal }
  /-- A setup hook is called. -/
  | started (rank : Rank C) (id : ComponentId) (slot : Slot C)
      (owned : rank.slot? id = some slot) : Act within rank [.started id rank.now] rank
  /-- The answer of a hook is taken over. -/
  | absorbed (rank : Rank C) (id : ComponentId) (slot : Slot C) (reaction : Reaction C)
      (owned : rank.slot? id = some slot) : Act within rank [] (rank.absorb id slot reaction)
  /-- A message is handed to the link that is bound to a port. -/
  | sent (rank : Rank C) (id : ComponentId) (slot : Slot C) (port : PortId) (binding : Binding)
      (message : Message) (owned : rank.slot? id = some slot)
      (bound : slot.binding? port = some binding) :
      Act within rank (rank.sendDeeds id port binding message) (rank.send binding message)
  /-- An event is taken out of the future. -/
  | took (rank : Rank C) (event : Scheduled Delivery) (pending : EventSet Delivery)
      (taken : rank.pending.pop? = some (event, pending)) (allowed : within event.time) :
      Act within rank (rank.takeDeeds event pending) (rank.take event pending)

/-- Several acts, one after the other, with their deeds. -/
inductive Course (within : Instant → Prop) : Rank C → List Deed → Rank C → Prop where
  /-- No act. -/
  | refl (rank : Rank C) : Course within rank [] rank
  /-- An act behind others. -/
  | behind {first middle last : Rank C} {deeds more : List Deed}
      (course : Course within first deeds middle) (act : Act within middle more last) :
      Course within first (deeds ++ more) last

variable {within : Instant → Prop}

namespace Course

/-- One act is a course. -/
theorem single {first last : Rank C} {deeds : List Deed} (act : Act within first deeds last) :
    Course within first deeds last := (refl first).behind act

/-- A course behind another one. -/
theorem trans {first middle last : Rank C} {deeds more : List Deed}
    (former : Course within first deeds middle) (latter : Course within middle more last) :
    Course within first (deeds ++ more) last := by
  induction latter with
  | refl => rwa [List.append_nil]
  | behind _ act former =>
    rw [← List.append_assoc]
    exact former.behind act

/-- What every act preserves holds behind a course. -/
theorem preserves (P : Rank C → List Deed → Prop)
    (step : ∀ first deeds more last,
      P first deeds → Act within first more last → P last (deeds ++ more))
    {first last : Rank C} {deeds more : List Deed} (course : Course within first more last)
    (holds : P first deeds) : P last (deeds ++ more) := by
  induction course with
  | refl => rwa [List.append_nil]
  | behind _ act former =>
    rw [← List.append_assoc]
    exact step _ _ _ _ former act

/-- What every act preserves of a rank alone holds behind a course. -/
theorem keeps (P : Rank C → Prop)
    (step : ∀ first more last, P first → Act within first more last → P last)
    {first last : Rank C} {deeds : List Deed} (course : Course within first deeds last)
    (holds : P first) : P last := by
  induction course with
  | refl => exact holds
  | behind _ act former => exact step _ _ _ former act

/-- Without deeds and events, only components, votes and log lines change. -/
theorem quiet {first last : Rank C} {deeds : List Deed}
    (course : Course (fun _ => False) first deeds last) (none : deeds = []) :
    last = { first with slots := last.slots, tally := last.tally, journal := last.journal } := by
  induction course with
  | refl => rfl
  | @behind _ _ _ _ _ act former =>
    obtain ⟨before, more⟩ := List.append_eq_nil_iff.mp none
    have same := former before
    cases act with
    | wrote => rw [same]
    | absorbed =>
      rw [same]
      rfl
    | started | sent => cases more
    | took _ _ _ allowed => exact allowed.elim

end Course

/-- An act changes neither the number of a rank nor the links. -/
theorem Act.keeps_links {first last : Rank C} {deeds : List Deed} (act : Act within first deeds last) :
    last.id = first.id ∧ last.links = first.links := by
  cases act with
  | wrote | started | absorbed | took => exact ⟨rfl, rfl⟩
  | sent id slot port binding message owned bound =>
    by_cases here : (first.receiver (delivery binding message)).rank = first.id
    · rw [send_of_eq here]
      exact ⟨rfl, rfl⟩
    · rw [send_of_ne here]
      exact ⟨rfl, rfl⟩

/-- An act lays out at most one parcel, with the number of the rank and the next serial number. -/
theorem Act.lays_out {first last : Rank C} {deeds : List Deed} (act : Act within first deeds last) :
    (last.outgoing = first.outgoing ∧ last.shipped = first.shipped) ∨
      ∃ parcel, last.outgoing = parcel :: first.outgoing ∧ parcel.origin = first.id ∧
        parcel.serial = first.shipped ∧ last.shipped = first.shipped + 1 := by
  cases act with
  | wrote | started | absorbed | took => exact Or.inl ⟨rfl, rfl⟩
  | sent id slot port binding message owned bound =>
    by_cases here : (first.receiver (delivery binding message)).rank = first.id
    · rw [send_of_eq here]
      exact Or.inl ⟨rfl, rfl⟩
    · rw [send_of_ne here]
      exact Or.inr ⟨_, rfl, rfl, rfl, rfl⟩

/-- A course changes neither the number of a rank nor the links. -/
theorem Course.keeps_links {first last : Rank C} {deeds : List Deed}
    (course : Course within first deeds last) :
    last.id = first.id ∧ last.links = first.links := by
  induction course with
  | refl => exact ⟨rfl, rfl⟩
  | behind _ act former =>
    exact ⟨act.keeps_links.1.trans former.1, act.keeps_links.2.trans former.2⟩

/-- A component of a rank has a place. -/
theorem lt_size_of_slot? {rank : Rank C} {id : ComponentId} {slot : Slot C}
    (owned : rank.slot? id = some slot) : id < rank.slots.size := by
  refine Nat.lt_of_not_le fun beyond => ?_
  rw [slot?, Array.getElem?_eq_none beyond] at owned
  cases owned

/-- The component of a position behind the answer of its hook. -/
theorem slot?_absorb {rank : Rank C} {id : ComponentId} {slot : Slot C} (reaction : Reaction C)
    (owned : rank.slot? id = some slot) :
    (rank.absorb id slot reaction).slot? id = some { slot with component := reaction.component } := by
  simp [slot?, absorb, lt_size_of_slot? owned]

/-- The answer of a hook changes no component of another position. -/
theorem slot?_absorb_of_ne (rank : Rank C) {id other : ComponentId} (slot : Slot C)
    (reaction : Reaction C) (differ : other ≠ id) :
    (rank.absorb id slot reaction).slot? other = rank.slot? other := by
  rw [slot?, absorb, Array.getElem?_setIfInBounds_ne differ.symm]
  rfl

/-- Handing a message to a link changes no component. -/
@[simp] theorem slots_send (rank : Rank C) (binding : Binding) (message : Message) :
    (rank.send binding message).slots = rank.slots := by
  by_cases here : (rank.receiver (delivery binding message)).rank = rank.id
  · rw [send_of_eq here]
    rfl
  · rw [send_of_ne here]
    rfl

/-- Handing messages to links is a course. -/
theorem flush_course (id : ComponentId) (slot : Slot C) (sends : List (PortId × Message))
    (rank : Rank C) (owner : Slot C) (owned : rank.slot? id = some owner)
    (same : owner.ports = slot.ports) :
    Course within rank (flushDeeds id slot sends rank) (flush slot sends rank).1 := by
  induction sends generalizing rank with
  | nil => exact .refl rank
  | cons first rest ih =>
    obtain ⟨port, message⟩ := first
    rw [flushDeeds, flush]
    cases bound : slot.binding? port with
    | none => exact .single (.wrote rank _)
    | some binding =>
      have bound : owner.binding? port = some binding := by
        rw [Slot.binding?, same]
        exact bound
      refine (Course.single (.sent rank id owner port binding message owned bound)).trans ?_
      refine ih _ ?_
      rw [slot?, slots_send]
      exact owned

/-- Taking over an answer and handing its messages to links is a course. -/
theorem reaction_course {id : ComponentId} {slot : Slot C} {rank : Rank C}
    (owned : rank.slot? id = some slot) (reaction : Reaction C) :
    Course within rank (rank.reactionDeeds id slot reaction)
      (flush slot reaction.sends (rank.absorb id slot reaction)).1 :=
  (Course.single (.absorbed rank id slot reaction owned)).trans
    (flush_course id slot _ _ _ (slot?_absorb reaction owned) rfl)

section Hooks

variable [Component C]

/-- The setup of a position is a course. -/
theorem setup_course (id : ComponentId) (rank : Rank C) :
    Course within rank (rank.setupDeeds id) (setup id rank).1 := by
  rw [setupDeeds, setup]
  cases owned : rank.slot? id with
  | none => exact .refl rank
  | some slot =>
    refine (Course.single (.started rank id slot owned)).trans ?_
    simp only
    cases outcome : (Component.setup slot.component (rank.context slot)).outcome with
    | panicked => exact .single (.absorbed rank id slot _ owned)
    | completed => exact reaction_course owned _
    | violated => exact reaction_course owned _

/-- Handing a message to its receiver is a course. -/
theorem deliver_course {id : ComponentId} {slot : Slot C} {rank : Rank C}
    (owned : rank.slot? id = some slot) (port : PortId) (message : Message) :
    Course within rank (deliverDeeds id slot port message rank) (rank.deliver id slot port message).1 := by
  rw [deliverDeeds, deliver]
  by_cases receives : slot.receives port
  · rw [if_pos receives, if_pos receives]
    simp only
    cases outcome : (Component.handle slot.component (rank.context slot) port message).outcome with
    | completed => exact reaction_course owned _
    | violated =>
      exact (Course.single (.absorbed rank id slot _ owned)).trans (.single (.wrote _ _))
    | panicked => exact .single (.absorbed rank id slot _ owned)
  · rw [if_neg receives, if_neg receives]
    exact .single (.wrote _ _)

/-- A dispatched event is taken and, where its receiver is owned, handed to it. -/
theorem dispatch_eq (event : Scheduled Delivery) (pending : EventSet Delivery) (rank : Rank C) :
    dispatch event { rank with pending } =
      match rank.slot? (rank.receiver event.payload).component with
      | none => (rank.take event pending,
          some (.failed (.misrouted (rank.link event.payload.link).name rank.id)))
      | some slot => (rank.take event pending).deliver (rank.receiver event.payload).component slot
          (rank.receiver event.payload).port event.payload.message := by
  rw [dispatch, take]
  simp only [slot?, receiver, link]
  cases rank.slots[((rank.links.getD event.payload.link default).endAt
    event.payload.arrival).component]?.join <;> rfl

/-- Dispatching an event is a course. -/
theorem dispatch_course {event : Scheduled Delivery} {pending : EventSet Delivery} {rank : Rank C}
    (taken : rank.pending.pop? = some (event, pending)) (allowed : within event.time) :
    Course within rank (rank.dispatchDeeds event pending) (dispatch event { rank with pending }).1 := by
  rw [dispatch_eq, dispatchDeeds]
  refine (Course.single (.took rank event pending taken allowed)).trans ?_
  cases owned : rank.slot? (rank.receiver event.payload).component with
  | none => exact .refl _
  | some slot => exact @deliver_course _ _ _ _ _ (rank.take event pending) owned _ _

/-- Finishing a position is a course without deeds. -/
theorem finishOne_course (id : ComponentId) (rank : Rank C) :
    Course within rank [] (finishOne id rank).1 := by
  rw [finishOne]
  cases owned : rank.slot? id with
  | none => exact .refl rank
  | some slot =>
    simp only
    have absorbed : Course within rank [] _ := .single
      (.absorbed rank id slot (Component.finish slot.component (rank.context slot)) owned)
    split
    · exact absorbed
    · split
      · exact absorbed
      · exact absorbed.trans (.single (.wrote _ _))

end Hooks

end Rank

end Rally
