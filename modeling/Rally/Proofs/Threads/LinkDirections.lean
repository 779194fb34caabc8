import Rally.Proofs.Threads.RankClock
/-!
# The ways of messages

A way is one direction of a link. Along it, what a rank hands to the link enters the set of future
events where the far end is on the same rank, and is laid out otherwise; what the rank dispatches is
the oldest of the events that wait. So neither act changes the order of the messages on a way.
-/

namespace Rally

/-- One direction of a link. -/
structure Way where
  /-- The link. -/
  link : LinkId
  /-- The side that messages leave. -/
  side : Side
  deriving DecidableEq

namespace Way

variable {C : Type} (way : Way) (links : Array Link)

/-- The end that messages leave. -/
def near : LinkEnd := (links.getD way.link default).endAt way.side

/-- The end that messages reach. -/
def far : LinkEnd := (links.getD way.link default).endAt way.side.opposite

/-- The time that messages take. -/
def latency : Duration := (links.getD way.link default).latency

/-- Whether a delivery goes this way. -/
def carries (delivery : Delivery) : Bool :=
  delivery.link == way.link && delivery.arrival == way.side.opposite

/-- Whether an event goes this way. -/
def bears (entry : Instant × Delivery) : Bool := way.carries entry.2

/-- Whether a parcel goes this way, from the rank of one end to that of the other. -/
def conveys (parcel : Parcel) : Bool :=
  way.carries parcel.delivery && parcel.origin == (way.near links).rank &&
    parcel.target == (way.far links).rank

/-- When a message that is sent now is due, and what is delivered then. -/
def post (now : Instant) (message : Message) : Instant × Delivery :=
  (now.saturatingAdd (way.latency links), ⟨way.link, way.side.opposite, message⟩)

/-- When a message that is handed to the link is due, and what is delivered then. -/
def entry (handing : Handing) : Instant × Delivery := way.post links handing.now handing.message

/-- What was handed to the link, as it is due. -/
def sent (deeds : List Deed) : List (Instant × Delivery) :=
  (deeds.filterMap (Deed.handing? way.link way.side)).map (way.entry links)

/-- What was dispatched. -/
def arrived (deeds : List Deed) : List (Instant × Delivery) :=
  ((deeds.filterMap Deed.event?).map Scheduled.entry).filter way.bears

/-- The events that wait on a rank, in the order in which they entered. -/
def waiting (rank : Rank C) : List (Instant × Delivery) :=
  (rank.pending.inOrder.map Scheduled.entry).filter way.bears

/-- What a rank has laid out, in the order in which it was sent. -/
def laid (rank : Rank C) : List (Instant × Delivery) :=
  (rank.outgoing.reverse.filter (way.conveys links)).map Parcel.entry

/-- What was handed to the link in some deeds and in more of them. -/
@[simp] theorem sent_append (deeds more : List Deed) :
    way.sent links (deeds ++ more) = way.sent links deeds ++ way.sent links more := by
  rw [sent, List.filterMap_append, List.map_append]
  rfl

/-- What was dispatched in some deeds and in more of them. -/
@[simp] theorem arrived_append (deeds more : List Deed) :
    way.arrived (deeds ++ more) = way.arrived deeds ++ way.arrived more := by
  rw [arrived, List.filterMap_append, List.map_append, List.filter_append]
  rfl

/-- An event that is dispatched comes before those that are dispatched later. -/
theorem arrived_dispatched (event : Scheduled Delivery) (arrival : Arrival) (rest : List Deed) :
    way.arrived (.dispatched event arrival :: rest) =
      if way.bears event.entry then event.entry :: way.arrived rest else way.arrived rest := by
  rw [arrived, List.filterMap_cons_some (show Deed.event? (.dispatched event arrival) = some event
    from rfl), List.map_cons, List.filter_cons]
  rfl

/-- A parcel that is laid out comes behind the others. -/
theorem laid_of_cons {first last : Rank C} {parcel : Parcel}
    (more : last.outgoing = parcel :: first.outgoing) : way.laid links last =
      way.laid links first ++ ([parcel].filter (way.conveys links)).map Parcel.entry := by
  rw [laid, more, List.reverse_cons, List.filter_append, List.map_append]
  rfl

/-- An event goes the way that leads over its link to the side where it arrives. -/
theorem bears_iff {entry : Instant × Delivery} :
    way.bears entry = true ↔ way = ⟨entry.2.link, entry.2.arrival.opposite⟩ := by
  obtain ⟨link, side⟩ := way
  have turned : entry.2.arrival = side.opposite ↔ side = entry.2.arrival.opposite := by
    cases side <;> cases entry.2.arrival <;> decide
  simp only [bears, carries, Bool.and_eq_true, beq_iff_eq, Way.mk.injEq, turned]
  exact ⟨fun same => ⟨same.1.symm, same.2⟩, fun same => ⟨same.1.symm, same.2⟩⟩

/-- A message goes the way along which it is sent. -/
theorem bears_post {sent : Way} {now : Instant} {message : Message} :
    way.bears (sent.post links now message) = true ↔ way = sent := by
  rw [bears_iff, post, Side.opposite_opposite]

/-- A message goes the way that its binding names. -/
theorem carries_delivery {binding : Binding} {message : Message} :
    way.carries (Rank.delivery binding message) = true ↔ way = ⟨binding.link, binding.side⟩ :=
  @bears_post way #[] ⟨binding.link, binding.side⟩ Instant.zero message

end Way

/-- Whether a delivery is for the component at the end of a link that is placed on a rank. -/
structure Delivery.IsFor (links : Array Link) (id : RankId) (delivery : Delivery) : Prop where
  /-- The link is there. -/
  known : delivery.link < links.size
  /-- The end that the delivery arrives at is placed on the rank. -/
  here : ((links.getD delivery.link default).endAt delivery.arrival).rank = id

/-- Whether a parcel is addressed as its link leads, from one rank to another. -/
structure Parcel.Addressed (links : Array Link) (parcel : Parcel) : Prop where
  /-- The delivery is for the rank that the parcel goes to. -/
  goal : parcel.delivery.IsFor links parcel.target
  /-- The other end is placed on the rank that it comes from. -/
  source : ((links.getD parcel.delivery.link default).endAt parcel.delivery.arrival.opposite).rank =
    parcel.origin
  /-- These ranks differ. -/
  differ : parcel.origin ≠ parcel.target

/-- Whether a deed on a rank is at the ends of links that are placed on it. -/
def Deed.Sited (links : Array Link) (id : RankId) : Deed → Prop
  | handed link side handing =>
    link < links.size ∧
      (links.getD link default).endAt side = ⟨handing.component, handing.port, id⟩
  | dispatched event arrival =>
    event.payload.link < links.size ∧
      (links.getD event.payload.link default).endAt event.payload.arrival =
        ⟨arrival.component, arrival.port, id⟩ ∧
      arrival.now = event.time ∧ arrival.message = event.payload.message
  | _ => True

namespace Way

variable {way : Way} {links : Array Link} {id : RankId}

/-- A rank hands nothing to a link whose near end is placed on another one. -/
theorem sent_of_ne {deeds : List Deed} (sited : ∀ deed ∈ deeds, deed.Sited links id)
    (away : (way.near links).rank ≠ id) : way.sent links deeds = [] := by
  rw [sent, List.map_eq_nil_iff, List.filterMap_eq_nil_iff]
  intro deed inside
  have there := sited deed inside
  cases deed with
  | handed link side handing =>
    rw [Deed.handing?, if_neg]
    rintro ⟨rfl, rfl⟩
    exact away (by rw [near, there.2])
  | _ => rfl

/-- What a rank dispatches is for its components. -/
theorem isFor_of_dispatched {deeds : List Deed} (sited : ∀ deed ∈ deeds, deed.Sited links id)
    {entry : Instant × Delivery}
    (inside : entry ∈ (deeds.filterMap Deed.event?).map Scheduled.entry) :
    entry.2.IsFor links id := by
  obtain ⟨event, dispatched, rfl⟩ := List.mem_map.mp inside
  obtain ⟨deed, there, same⟩ := List.mem_filterMap.mp dispatched
  have sited := sited deed there
  cases deed with
  | dispatched other arrival =>
    cases same
    exact ⟨sited.1, congrArg LinkEnd.rank sited.2.1⟩
  | _ => cases same

/-- A message that is on its way for a rank reaches the far end there. -/
theorem far_of_bears {entry : Instant × Delivery} (held : entry.2.IsFor links id)
    (carried : way.bears entry = true) :
    way.link < links.size ∧ (way.far links).rank = id := by
  simp only [bears, carries, Bool.and_eq_true, beq_iff_eq] at carried
  rw [far, ← carried.1, ← carried.2]
  exact ⟨held.known, held.here⟩

/-- A rank dispatches nothing where the far end is placed on another one. -/
theorem arrived_of_ne {deeds : List Deed} (sited : ∀ deed ∈ deeds, deed.Sited links id)
    (away : (way.far links).rank ≠ id) : way.arrived deeds = [] := by
  rw [arrived, List.filter_eq_nil_iff]
  intro entry inside carried
  exact away (way.far_of_bears (isFor_of_dispatched sited inside) carried).2

/-- A parcel that is addressed as its link leads and goes a way is conveyed along it. -/
theorem conveys_eq {parcel : Parcel} (addressed : parcel.Addressed links) :
    way.conveys links parcel = way.carries parcel.delivery := by
  rw [conveys]
  by_cases carried : way.carries parcel.delivery = true
  · simp only [carries, Bool.and_eq_true, beq_iff_eq] at carried
    have source := addressed.source
    have goal := addressed.goal.here
    rw [carried.1, carried.2, Side.opposite_opposite] at source
    rw [carried.1, carried.2] at goal
    have from_near : (parcel.origin == (way.near links).rank) = true :=
      beq_iff_eq.mpr source.symm
    have to_far : (parcel.target == (way.far links).rank) = true := beq_iff_eq.mpr goal.symm
    rw [from_near, to_far, Bool.and_true, Bool.and_true]
  · rw [Bool.not_eq_true] at carried
    rw [carried, Bool.false_and, Bool.false_and]

/-- A parcel goes no way between two ends on one rank. -/
theorem not_carries {parcel : Parcel} (addressed : parcel.Addressed links)
    (same : (way.near links).rank = (way.far links).rank) :
    way.carries parcel.delivery = false := by
  rw [← conveys_eq addressed, conveys]
  by_contra conveyed
  simp only [Bool.not_eq_false, Bool.and_eq_true, beq_iff_eq] at conveyed
  exact addressed.differ (conveyed.1.2.trans (same.trans conveyed.2.symm))

end Way

namespace Rank

variable {C : Type} {within : Instant → Prop} {way : Way} {links : Array Link}

/-- What a rank knows about where its events and parcels go. -/
structure Routed (links : Array Link) (rank : Rank C) : Prop where
  /-- The rank knows the links. -/
  known : rank.links = links
  /-- Its ports fit them. -/
  wired : rank.Wired
  /-- The set of future events is in order. -/
  sound : rank.pending.Sound
  /-- The time is that of the last event taken. -/
  clock : rank.now = rank.pending.last
  /-- The events to come are for its components. -/
  held : ∀ event ∈ rank.pending.inOrder, event.payload.IsFor links rank.id
  /-- What is laid out is for other ranks. -/
  outgoing : ∀ parcel ∈ rank.outgoing, parcel.Addressed links

/-- A message is due when the way that its binding names takes it. -/
theorem due_eq {rank : Rank C} (known : rank.links = links) (binding : Binding) :
    rank.due binding = rank.now.saturatingAdd (Way.latency ⟨binding.link, binding.side⟩ links) := by
  rw [due, link, known]
  rfl

/-- A message arrives at the far end of the way that its binding names. -/
theorem receiver_eq {rank : Rank C} (known : rank.links = links) (binding : Binding)
    (message : Message) :
    rank.receiver (delivery binding message) = Way.far ⟨binding.link, binding.side⟩ links := by
  rw [receiver, link, known]
  rfl

/-- A bound port is the near end of the way that its binding names. -/
theorem Routed.near_eq {rank : Rank C} (routed : rank.Routed links) {id : ComponentId}
    {slot : Slot C} {port : PortId} {binding : Binding} (owned : rank.slot? id = some slot)
    (bound : slot.binding? port = some binding) :
    binding.link < links.size ∧
      Way.near ⟨binding.link, binding.side⟩ links = ⟨id, port, rank.id⟩ := by
  obtain ⟨inside, same⟩ := routed.wired.bound id slot port binding owned bound
  rw [routed.known] at inside
  rw [link, routed.known] at same
  exact ⟨inside, same⟩

/-- A message that goes a way is sent along it as it is due. -/
theorem sent_sendDeeds {rank : Rank C} (known : rank.links = links) (id : ComponentId)
    (port : PortId) (binding : Binding) (message : Message) :
    way.sent links (rank.sendDeeds id port binding message) =
      if way.carries (delivery binding message) then
        [(rank.due binding, delivery binding message)] else [] := by
  have handed : way.sent links (rank.sendDeeds id port binding message) =
      way.sent links [.handed binding.link binding.side ⟨id, port, rank.now, message⟩] := by
    rw [sendDeeds]
    split <;> rfl
  rw [handed]
  by_cases carried : way.carries (delivery binding message) = true
  · rw [if_pos carried, due_eq known]
    obtain rfl := way.carries_delivery.mp carried
    simp [Way.sent, Deed.handing?, Way.entry, Way.post, delivery]
  · rw [if_neg carried, Way.sent]
    rw [way.carries_delivery] at carried
    have none : Deed.handing? way.link way.side
        (.handed binding.link binding.side ⟨id, port, rank.now, message⟩) = none := by
      refine if_neg fun same => carried ?_
      rw [same.1, same.2]
    rw [List.filterMap_cons_none none]
    rfl

/-- Handing a message to a link dispatches nothing. -/
theorem arrived_sendDeeds (rank : Rank C) (id : ComponentId) (port : PortId) (binding : Binding)
    (message : Message) : way.arrived (rank.sendDeeds id port binding message) = [] := by
  rw [sendDeeds]
  split <;> rfl

/-- The next event is dispatched to the component that it is for. -/
theorem Routed.takeDeeds_eq {rank : Rank C} (routed : rank.Routed links)
    {event : Scheduled Delivery} {pending : EventSet Delivery}
    (taken : rank.pending.pop? = some (event, pending)) :
    ∃ arrival, rank.takeDeeds event pending = [.dispatched event arrival] ∧
      (Deed.dispatched event arrival).Sited links rank.id := by
  obtain ⟨whole, -⟩ := routed.sound.pop taken
  have inside : event ∈ rank.pending.inOrder :=
    EventSet.mem_inOrder.mpr (whole.mem_iff.mpr List.mem_cons_self)
  obtain ⟨known, here⟩ := routed.held event inside
  have place : rank.receiver event.payload =
      (links.getD event.payload.link default).endAt event.payload.arrival := by
    rw [receiver, link, routed.known]
  obtain ⟨slot, owned⟩ := routed.wired.owned event.payload.link event.payload.arrival
    (by rw [routed.known]; exact known) (by rw [link, routed.known]; exact here)
  have owned : rank.slot? (rank.receiver event.payload).component = some slot := owned
  rw [takeDeeds]
  simp only [owned]
  refine ⟨_, rfl, known, ?_, rfl, rfl⟩
  rw [← here, ← place]

/-- Scheduling parcels hands nothing to links and dispatches nothing. -/
theorem addDeeds_plain (way : Way) (links : Array Link) (parcels : List Parcel)
    (pending : EventSet Delivery) :
    way.sent links (addDeeds parcels pending) = [] ∧ way.arrived (addDeeds parcels pending) = [] := by
  rw [Way.sent, Way.arrived, filterMap_addDeeds fun _ _ => rfl, filterMap_addDeeds fun _ _ => rfl]
  exact ⟨rfl, rfl⟩

/-- Scheduling parcels is a deed at no link. -/
theorem sited_addDeeds (parcels : List Parcel) (pending : EventSet Delivery) (id : RankId) :
    ∀ deed ∈ addDeeds parcels pending, deed.Sited links id := by
  intro deed inside
  obtain ⟨time, last, rfl⟩ := eq_scheduled_of_mem inside
  trivial

/-- An act leaves events and parcels routed, and its deeds are at the ends of links. -/
theorem Routed.act {first last : Rank C} {deeds : List Deed} (routed : first.Routed links)
    (act : Act within first deeds last) :
    last.Routed links ∧ ∀ deed ∈ deeds, deed.Sited links first.id := by
  have wired := act.keeps_wired routed.wired
  have known := act.keeps_links.2.trans routed.known
  cases act with
  | wrote | absorbed =>
    exact ⟨⟨known, wired, routed.sound, routed.clock, routed.held, routed.outgoing⟩,
      fun deed inside => (List.not_mem_nil inside).elim⟩
  | started id slot owned =>
    refine ⟨routed, fun deed inside => ?_⟩
    rw [List.mem_singleton.mp inside]
    trivial
  | took event pending taken =>
    obtain ⟨whole, -, sound, last, -⟩ := routed.sound.pop taken
    refine ⟨⟨known, wired, sound, last.symm, fun other still => ?_, routed.outgoing⟩, ?_⟩
    · refine routed.held other (EventSet.mem_inOrder.mpr (whole.mem_iff.mpr ?_))
      exact List.mem_cons_of_mem event (EventSet.mem_inOrder.mp still)
    · obtain ⟨arrival, same, sited⟩ := routed.takeDeeds_eq taken
      rw [same]
      intro deed inside
      rw [List.mem_singleton.mp inside]
      exact sited
  | sent id slot port binding message owned bound =>
    obtain ⟨inside, own⟩ := routed.near_eq owned bound
    have receiver := receiver_eq routed.known binding message
    have due : first.pending.last ≤ first.due binding := by
      rw [← routed.clock]
      exact Duration.le_saturatingAdd _ _
    have sited : ∀ deed ∈ first.sendDeeds id port binding message,
        deed.Sited links first.id := by
      intro deed there
      rw [sendDeeds] at there
      rcases List.mem_cons.mp there with rfl | there
      · exact ⟨inside, own⟩
      · split at there
        · rw [List.mem_singleton.mp there]
          trivial
        · cases there
    refine ⟨?_, sited⟩
    by_cases here : (first.receiver (delivery binding message)).rank = first.id
    · rw [send_of_eq here] at wired known ⊢
      refine ⟨known, wired, routed.sound.add due _,
        routed.clock.trans (EventSet.last_add _ _ _).symm, fun event there => ?_, routed.outgoing⟩
      rw [EventSet.inOrder_add routed.sound, List.mem_append, List.mem_singleton] at there
      rcases there with old | rfl
      · exact routed.held event old
      · rw [receiver] at here
        exact ⟨inside, here⟩
    · rw [send_of_ne here] at wired known ⊢
      refine ⟨known, wired, routed.sound, routed.clock, routed.held, fun parcel there => ?_⟩
      rcases List.mem_cons.mp there with rfl | old
      · refine ⟨⟨inside, by rw [receiver]; rfl⟩, ?_, fun same => here same.symm⟩
        change ((links.getD binding.link default).endAt binding.side.opposite.opposite).rank =
          first.id
        rw [Side.opposite_opposite]
        exact congrArg LinkEnd.rank own
      · exact routed.outgoing parcel old

/-- A course leaves events and parcels routed, and its deeds are at the ends of links. -/
theorem Routed.course {first last : Rank C} {deeds : List Deed} (routed : first.Routed links)
    (course : Course within first deeds last) :
    last.Routed links ∧ ∀ deed ∈ deeds, deed.Sited links first.id := by
  induction course with
  | refl => exact ⟨routed, fun deed inside => (List.not_mem_nil inside).elim⟩
  | behind former act ih =>
    obtain ⟨middle, sited⟩ := ih
    obtain ⟨final, more⟩ := middle.act act
    refine ⟨final, fun deed inside => ?_⟩
    rcases List.mem_append.mp inside with old | new
    · exact sited deed old
    · rw [← former.keeps_links.1]
      exact more deed new

/-- What an act hands to a link is due as it is sent now, and the time does not go back. -/
theorem Routed.dated {first last : Rank C} {deeds : List Deed} (routed : first.Routed links)
    (act : Act within first deeds last) : first.now ≤ last.now ∧
      (way.sent links deeds).Pairwise (fun x y => x.1 ≤ y.1) ∧
      ∀ entry ∈ way.sent links deeds,
        entry.1 = first.now.saturatingAdd (way.latency links) := by
  cases act with
  | wrote | absorbed | started =>
    exact ⟨le_refl _, .nil, fun entry inside => (List.not_mem_nil inside).elim⟩
  | took event pending taken =>
    obtain ⟨whole, -⟩ := routed.sound.pop taken
    obtain ⟨arrival, same, -⟩ := routed.takeDeeds_eq taken
    refine ⟨?_, ?_⟩
    · rw [routed.clock]
      exact routed.sound.last_le event (whole.mem_iff.mpr List.mem_cons_self)
    · rw [same]
      exact ⟨.nil, fun entry inside => (List.not_mem_nil inside).elim⟩
  | sent id slot port binding message =>
    refine ⟨?_, ?_⟩
    · by_cases here : (first.receiver (delivery binding message)).rank = first.id
      · rw [send_of_eq here]
        exact le_refl _
      · rw [send_of_ne here]
        exact le_refl _
    · rw [sent_sendDeeds routed.known]
      by_cases carried : way.carries (delivery binding message) = true
      · rw [if_pos carried, due_eq routed.known, ← way.carries_delivery.mp carried]
        refine ⟨List.pairwise_singleton _ _, fun entry inside => ?_⟩
        rw [List.mem_singleton.mp inside]
      · rw [if_neg carried]
        exact ⟨.nil, fun entry inside => (List.not_mem_nil inside).elim⟩

/-- What an act hands to a link that leads to another rank is laid out. -/
theorem Routed.laid_act {first last : Rank C} {deeds : List Deed} (routed : first.Routed links)
    (act : Act within first deeds last) : way.laid links last = way.laid links first ++
      if (way.far links).rank = first.id then [] else way.sent links deeds := by
  cases act with
  | wrote | absorbed =>
    have none : way.sent links [] = [] := rfl
    rw [none, ite_self, List.append_nil]
    rfl
  | started id =>
    have none : way.sent links [Deed.started id first.now] = [] := rfl
    rw [none, ite_self, List.append_nil]
  | took event pending taken =>
    obtain ⟨arrival, same, -⟩ := routed.takeDeeds_eq taken
    simp [same, Way.laid, Rank.take, Way.sent, Deed.handing?]
  | sent id slot port binding message owned bound =>
    have far := receiver_eq routed.known binding message
    have near := (routed.near_eq owned bound).2
    rw [sent_sendDeeds routed.known]
    by_cases here : (first.receiver (delivery binding message)).rank = first.id
    · rw [send_of_eq here, far] at *
      by_cases carried : way.carries (delivery binding message) = true
      · obtain rfl := way.carries_delivery.mp carried
        rw [if_pos here, List.append_nil]
        rfl
      · rw [if_neg carried, ite_self, List.append_nil]
        rfl
    · rw [send_of_ne here]
      rw [far] at here ⊢
      refine (way.laid_of_cons links rfl).trans (congrArg _ ?_)
      by_cases carried : way.carries (delivery binding message) = true
      · obtain rfl := way.carries_delivery.mp carried
        rw [if_neg here, if_pos carried, List.filter_singleton, Way.conveys, carried, near]
        simp [Parcel.entry]
      · rw [if_neg carried, ite_self, List.filter_singleton, Way.conveys]
        simp [carried]

/-- Where the messages of a way wait in the order in which they are due, the next event on it is the
first of them, and what an act hands to a link between components of the rank comes behind. -/
theorem Routed.waiting_act {first last : Rank C} {deeds : List Deed} (routed : first.Routed links)
    (act : Act within first deeds last)
    (sorted : (way.waiting first).Pairwise fun x y => x.1 ≤ y.1) :
    way.arrived deeds ++ way.waiting last = way.waiting first ++
      if (way.far links).rank = first.id then way.sent links deeds else [] := by
  cases act with
  | wrote | absorbed =>
    have none : way.sent links [] = [] := rfl
    rw [none, ite_self, List.append_nil]
    rfl
  | started id =>
    have none : way.sent links [Deed.started id first.now] = [] := rfl
    rw [none, ite_self, List.append_nil]
    rfl
  | took event pending taken =>
    obtain ⟨arrival, same, -⟩ := routed.takeDeeds_eq taken
    obtain ⟨before, after, split, rest, early, -⟩ := routed.sound.inOrder_pop taken
    have still : way.waiting (first.take event pending) =
        (before.map Scheduled.entry ++ after.map Scheduled.entry).filter
          way.bears := by
      rw [← List.map_append, ← rest]
      rfl
    have none : way.sent links [Deed.dispatched event arrival] = [] := rfl
    rw [same, none, ite_self, List.append_nil, still, Way.waiting, split, List.map_append,
      List.map_cons, List.filter_append, List.filter_append]
    by_cases carried : way.bears event.entry = true
    · -- An event on the same way that entered before would be due no later.
      have empty : (before.map Scheduled.entry).filter (way.bears) = [] := by
        rw [List.filter_eq_nil_iff]
        intro entry inside other
        obtain ⟨former, there, rfl⟩ := List.mem_map.mp inside
        rw [Way.waiting, split, List.map_append, List.map_cons, List.filter_append,
          List.filter_cons_of_pos carried, List.pairwise_append] at sorted
        have least := sorted.2.2 former.entry (List.mem_filter.mpr ⟨inside, other⟩) event.entry
          List.mem_cons_self
        exact absurd (early former there) (not_lt.mpr least)
      rw [empty, List.filter_cons_of_pos carried, List.nil_append, List.nil_append,
        Way.arrived_dispatched, if_pos carried]
      rfl
    · rw [List.filter_cons_of_neg carried, Way.arrived_dispatched, if_neg carried]
      rfl
  | sent id slot port binding message owned bound =>
    have far := receiver_eq routed.known binding message
    rw [arrived_sendDeeds, List.nil_append, sent_sendDeeds routed.known]
    by_cases here : (first.receiver (delivery binding message)).rank = first.id
    · rw [send_of_eq here]
      have grown : way.waiting { first.countSent binding with
          pending := first.pending.add (first.due binding) (delivery binding message) } =
            way.waiting first ++ [(first.due binding, delivery binding message)].filter
              way.bears := by
        rw [Way.waiting, EventSet.inOrder_add routed.sound, List.map_append, List.filter_append]
        rfl
      rw [grown, List.filter_singleton, Way.bears]
      rw [far] at here
      by_cases carried : way.carries (delivery binding message) = true
      · obtain rfl := way.carries_delivery.mp carried
        rw [if_pos here, if_pos carried, carried, cond_true]
      · rw [if_neg carried, ite_self, Bool.eq_false_iff.mpr carried, cond_false]
    · rw [send_of_ne here]
      rw [far] at here
      by_cases carried : way.carries (delivery binding message) = true
      · obtain rfl := way.carries_delivery.mp carried
        rw [if_neg here, List.append_nil]
        rfl
      · rw [if_neg carried, ite_self, List.append_nil]
        rfl

/-- The next event is the first that waits on its way. -/
theorem Routed.waiting_pop {rank : Rank C} (routed : rank.Routed links)
    {event : Scheduled Delivery} {pending : EventSet Delivery}
    (taken : rank.pending.pop? = some (event, pending))
    (sorted : (way.waiting rank).Pairwise fun x y => x.1 ≤ y.1) :
    [event.entry].filter way.bears <+: way.waiting rank := by
  have act : Act (fun _ => True) rank _ _ := .took rank event pending taken trivial
  have waiting := routed.waiting_act act sorted
  obtain ⟨arrival, same, -⟩ := routed.takeDeeds_eq taken
  have none : way.sent links [Deed.dispatched event arrival] = [] := rfl
  rw [same, none, ite_self, List.append_nil] at waiting
  exact ⟨_, waiting⟩

/-- What the time tells about the messages of a way on a rank, given the deeds so far. -/
structure Flows (way : Way) (links : Array Link) (history : List Deed) (rank : Rank C) : Prop where
  /-- Messages are handed to the link in the order in which they are due. -/
  ascending : (way.sent links history).Pairwise fun x y => x.1 ≤ y.1
  /-- None of them is due behind one that is handed to it now. -/
  sent : ∀ entry ∈ way.sent links history,
    entry.1 ≤ rank.now.saturatingAdd (way.latency links)
  /-- Those that were dispatched and those that wait are in this order as well. -/
  received : (way.arrived history ++ way.waiting rank).Pairwise fun x y => x.1 ≤ y.1
  /-- Between two components of the rank, none of these is due behind one that is sent now. -/
  inside : (way.near links).rank = rank.id → (way.far links).rank = rank.id →
    ∀ entry ∈ way.arrived history ++ way.waiting rank,
      entry.1 ≤ rank.now.saturatingAdd (way.latency links)

/-- An act keeps the messages of a way in their order. -/
theorem Flows.act {first last : Rank C} {deeds history : List Deed}
    (flows : first.Flows way links history) (routed : first.Routed links)
    (act : Act within first deeds last) : last.Flows way links (history ++ deeds) := by
  obtain ⟨-, sited⟩ := routed.act act
  obtain ⟨clock, ordered, dated⟩ := routed.dated act
  have later : first.now.saturatingAdd (way.latency links) ≤
      last.now.saturatingAdd (way.latency links) :=
    Duration.saturatingAdd_le_saturatingAdd clock (le_refl _)
  have whole : way.arrived (history ++ deeds) ++ way.waiting last =
      way.arrived history ++ way.waiting first ++
        if (way.far links).rank = first.id then way.sent links deeds else [] := by
    rw [Way.arrived_append, List.append_assoc,
      routed.waiting_act act (List.pairwise_append.mp flows.received).2.1, List.append_assoc]
  refine ⟨?ascending, ?sent, ?received, ?inside⟩
  case ascending =>
    rw [Way.sent_append, List.pairwise_append]
    refine ⟨flows.ascending, ordered, fun x old y new => ?_⟩
    rw [dated y new]
    exact flows.sent x old
  case sent =>
    rw [Way.sent_append]
    intro entry inside
    rcases List.mem_append.mp inside with old | new
    · exact le_trans (flows.sent entry old) later
    · rw [dated entry new]
      exact later
  case received =>
    rw [whole, List.pairwise_append]
    refine ⟨flows.received, ?_, fun x old y new => ?_⟩
    · split
      · exact ordered
      · exact .nil
    · split at new
      · next here =>
        have near : (way.near links).rank = first.id := by
          by_contra away
          rw [way.sent_of_ne sited away] at new
          cases new
        rw [dated y new]
        exact flows.inside near here x old
      · cases new
  case inside =>
    rw [whole, act.keeps_links.1]
    intro near far entry inside
    rcases List.mem_append.mp inside with old | new
    · exact le_trans (flows.inside near far entry old) later
    · rw [if_pos far] at new
      rw [dated entry new]
      exact later

/-- The messages of a way keep their order in a course: what it hands to the link joins those that
wait on the rank or those that are laid out. -/
theorem Flows.course {first last : Rank C} {deeds history : List Deed}
    (flows : first.Flows way links history) (routed : first.Routed links)
    (course : Course within first deeds last) :
    last.Flows way links (history ++ deeds) ∧
      way.arrived deeds ++ way.waiting last = way.waiting first ++
        (if (way.far links).rank = first.id then way.sent links deeds else []) ∧
      way.laid links last = way.laid links first ++
        if (way.far links).rank = first.id then [] else way.sent links deeds := by
  induction course with
  | refl =>
    have none : way.sent links [] = [] := rfl
    refine ⟨by rwa [List.append_nil], ?_, ?_⟩
    · rw [none, ite_self, List.append_nil]
      rfl
    · rw [none, ite_self, List.append_nil]
  | @behind middle last deeds more former act ih =>
    obtain ⟨flows, waiting, laid⟩ := ih
    have id := former.keeps_links.1
    have routed := (routed.course former).1
    have moreWaiting := routed.waiting_act act (List.pairwise_append.mp flows.received).2.1
    have moreLaid := @Routed.laid_act _ _ way _ _ _ _ routed act
    rw [id] at moreWaiting moreLaid
    refine ⟨?_, ?_, ?_⟩
    · rw [← List.append_assoc]
      exact flows.act routed act
    · rw [Way.arrived_append, List.append_assoc, moreWaiting, ← List.append_assoc, waiting,
        List.append_assoc, Way.sent_append]
      split <;> simp
    · rw [moreLaid, laid, List.append_assoc, Way.sent_append]
      split <;> simp

end Rank

end Rally
