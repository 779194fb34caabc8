import Rally.Proofs.Pool.SequentialRuns
/-!
# Calls of hooks on a rank

A visit is a call of a hook that did not fail, with what it sent. What a rank does in its setup and
where it dispatches an event is a visit: it depends on the called component alone, and changes this
component alone.
-/

namespace Rally

/-- A call of a hook that did not fail. -/
structure Visit where
  /-- Why the hook was called. -/
  cause : Cause
  /-- The messages that it sent, and the ways that they go. -/
  sends : List (Way × Message)

namespace Visit

variable (links : Array Link) (visit : Visit)

/-- What the messages that were sent become. -/
def posted : List (Instant × Delivery) :=
  visit.sends.map fun sent => sent.1.post links visit.cause.now sent.2

end Visit

/-- What the messages that visits sent become. -/
def postedBy (links : Array Link) (visits : List Visit) : List (Instant × Delivery) :=
  visits.flatMap (Visit.posted links)

/-- The messages that visits were called for. -/
def takenBy (visits : List Visit) : List (Instant × Delivery) :=
  visits.flatMap fun visit => visit.cause.taken

/-- What visits post behind others. -/
@[simp] theorem postedBy_append (links : Array Link) (visits more : List Visit) :
    postedBy links (visits ++ more) = postedBy links visits ++ postedBy links more :=
  List.flatMap_append

/-- What visits take behind others. -/
@[simp] theorem takenBy_append (visits more : List Visit) :
    takenBy (visits ++ more) = takenBy visits ++ takenBy more :=
  List.flatMap_append

/-- What a visit posts alone. -/
@[simp] theorem postedBy_singleton (links : Array Link) (visit : Visit) :
    postedBy links [visit] = visit.posted links :=
  List.flatMap_singleton _ _

/-- What a visit takes alone. -/
@[simp] theorem takenBy_singleton (visit : Visit) : takenBy [visit] = visit.cause.taken :=
  List.flatMap_singleton _ _

/-- What a deed hands to a link, as it is due. -/
def Deed.posted? (links : Array Link) : Deed → Option (Instant × Delivery)
  | handed link side handing => some (Way.post ⟨link, side⟩ links handing.now handing.message)
  | _ => none

/-- What some deeds hand to links, as it is due. -/
def postedOf (links : Array Link) (deeds : List Deed) : List (Instant × Delivery) :=
  deeds.filterMap (Deed.posted? links)

/-- What some deeds dispatch. -/
def takenOf (deeds : List Deed) : List (Instant × Delivery) :=
  (deeds.filterMap Deed.event?).map Scheduled.entry

/-- What some deeds hand to links, and more of them. -/
@[simp] theorem postedOf_append (links : Array Link) (deeds more : List Deed) :
    postedOf links (deeds ++ more) = postedOf links deeds ++ postedOf links more :=
  List.filterMap_append

/-- What some deeds dispatch, and more of them. -/
@[simp] theorem takenOf_append (deeds more : List Deed) :
    takenOf (deeds ++ more) = takenOf deeds ++ takenOf more := by
  rw [takenOf, List.filterMap_append, List.map_append]
  rfl

namespace Way

variable (way : Way) (links : Array Link)

/-- What is handed to a link is, among all that is posted, what goes its way. -/
theorem sent_eq_filter (deeds : List Deed) :
    way.sent links deeds = (postedOf links deeds).filter way.bears := by
  induction deeds with
  | nil => rfl
  | cons deed rest ih =>
    have split : way.sent links (deed :: rest) = way.sent links [deed] ++ way.sent links rest :=
      way.sent_append links [deed] rest
    have posted : postedOf links (deed :: rest) = postedOf links [deed] ++ postedOf links rest :=
      postedOf_append links [deed] rest
    rw [split, posted, List.filter_append, ih]
    refine congrArg (· ++ _) ?_
    cases deed with
    | handed link side handing =>
      have alone : postedOf links [.handed link side handing] =
          [Way.post ⟨link, side⟩ links handing.now handing.message] := rfl
      rw [alone, List.filter_singleton]
      by_cases same : way = ⟨link, side⟩
      · rw [(bears_post way links).mpr same, cond_true]
        subst same
        simp [Way.sent, Deed.handing?, Way.entry]
      · have away : ¬ (link = way.link ∧ side = way.side) := by
          rintro ⟨rfl, rfl⟩
          exact same rfl
        rw [Bool.eq_false_iff.mpr fun carried => same ((bears_post way links).mp carried), cond_false]
        simp [Way.sent, Deed.handing?, away]
    | _ => rfl

/-- What is dispatched at the far end is, among all that is dispatched, what goes its way. -/
theorem arrived_eq_filter (deeds : List Deed) : way.arrived deeds = (takenOf deeds).filter way.bears :=
  rfl

end Way

namespace Rank

variable {C : Type} {links : Array Link}

/-- Handing a message to a link takes no time, and the rank stays the same one. -/
theorem send_still (rank : Rank C) (binding : Binding) (message : Message) :
    (rank.send binding message).now = rank.now ∧ (rank.send binding message).id = rank.id := by
  by_cases here : (rank.receiver (delivery binding message)).rank = rank.id
  · rw [send_of_eq here]
    exact ⟨rfl, rfl⟩
  · rw [send_of_ne here]
    exact ⟨rfl, rfl⟩

/-- The deeds of handing a message to a link post it and dispatch nothing. -/
theorem sendDeeds_posted (rank : Rank C) (id : ComponentId) (port : PortId) (binding : Binding)
    (message : Message) :
    postedOf links (rank.sendDeeds id port binding message) =
        [Way.post ⟨binding.link, binding.side⟩ links rank.now message] ∧
      takenOf (rank.sendDeeds id port binding message) = [] := by
  rw [sendDeeds]
  split <;> exact ⟨rfl, rfl⟩

/-- A message on a configured port goes the way that its binding names. -/
theorem route?_cons {slot : Slot C} {port : PortId} {binding : Binding} {message : Message}
    {rest : List (PortId × Message)} {routed : List (Way × Message)}
    (bound : slot.binding? port = some binding) (routes : slot.route? rest = some routed) :
    slot.route? ((port, message) :: rest) =
      some ((⟨binding.link, binding.side⟩, message) :: routed) := by
  rw [Slot.route?] at routes ⊢
  simp only [List.mapM_cons, bound, Option.map_some]
  rw [routes]
  rfl

/-- Where all messages of a hook are handed to links, all ports are configured. -/
theorem flush_none (id : ComponentId) {slot : Slot C} {sends : List (PortId × Message)}
    {rank last : Rank C} (handed : flush slot sends rank = (last, none)) :
    ∃ routed, slot.route? sends = some routed ∧ last.slots = rank.slots ∧ last.id = rank.id ∧
      postedOf links (flushDeeds id slot sends rank) =
        routed.map (fun sent => sent.1.post links rank.now sent.2) ∧
      takenOf (flushDeeds id slot sends rank) = [] := by
  induction sends generalizing rank with
  | nil =>
    cases handed
    exact ⟨[], rfl, rfl, rfl, rfl, rfl⟩
  | cons first rest ih =>
    obtain ⟨port, message⟩ := first
    rw [flush] at handed
    cases bound : slot.binding? port with
    | none =>
      simp only [bound] at handed
      cases handed
    | some binding =>
      simp only [bound] at handed
      obtain ⟨routed, routes, slots, same, posted, taken⟩ := ih handed
      obtain ⟨now, number⟩ := send_still rank binding message
      obtain ⟨one, none⟩ := @sendDeeds_posted _ links rank id port binding message
      refine ⟨_, route?_cons bound routes, ?_, same.trans number, ?_, ?_⟩
      · rw [slots, slots_send]
      · rw [flushDeeds]
        simp only [bound]
        rw [postedOf_append, one, posted, now]
        rfl
      · rw [flushDeeds]
        simp only [bound]
        rw [takenOf_append, none, taken]
        rfl

/-- Scheduling parcels posts nothing and dispatches nothing. -/
theorem addDeeds_posted (parcels : List Parcel) (pending : EventSet Delivery) :
    postedOf links (addDeeds parcels pending) = [] ∧ takenOf (addDeeds parcels pending) = [] := by
  rw [postedOf, takenOf, filterMap_addDeeds fun _ _ => rfl, filterMap_addDeeds fun _ _ => rfl]
  exact ⟨rfl, rfl⟩

/-- The answer of a hook changes the called component. -/
theorem seats_absorb {rank : Rank C} {id : ComponentId} {slot : Slot C} (reaction : Reaction C)
    (owned : rank.slot? id = some slot) :
    (rank.absorb id slot reaction).seats = Function.update rank.seats id
      (some ⟨{ slot with component := reaction.component }, rank.id⟩) := by
  funext other
  by_cases same : other = id
  · subst same
    rw [Function.update_self, seats, slot?_absorb reaction owned]
    rfl
  · rw [Function.update_of_ne same, seats, slot?_absorb_of_ne rank slot reaction same]
    rfl

/-- The components of a rank are those in its slots. -/
theorem seats_of_same {rank last : Rank C} (slots : last.slots = rank.slots)
    (id : last.id = rank.id) : last.seats = rank.seats := by
  funext position
  rw [seats, seats, slot?, slot?, slots, id]

end Rank

section Hooks

variable {C : Type} [Component C] {links : Array Link}

/-- Whether a visit leads from components to others. -/
inductive Visit.Leads (links : Array Link) (visit : Visit) : Seats C → Seats C → Prop where
  /-- The called component answers as the visit tells. -/
  | called {seats : Seats C} {seat answer : Seat C}
      (there : seats (visit.cause.component links) = some seat)
      (answers : seat.answer? links visit.cause = some (answer, visit.sends)) :
      Leads links visit seats
        (Function.update seats (visit.cause.component links) (some answer))

/-- Several visits, one after the other, lead from components to others. -/
inductive Path (links : Array Link) : Seats C → List Visit → Seats C → Prop where
  /-- No visit. -/
  | refl (seats : Seats C) : Path links seats [] seats
  /-- A visit in front of others. -/
  | step {first middle last : Seats C} {visit : Visit} {rest : List Visit}
      (leads : visit.Leads links first middle) (path : Path links middle rest last) :
      Path links first (visit :: rest) last

namespace Path

/-- A visit behind others. -/
theorem behind {first middle last : Seats C} {visits : List Visit} {visit : Visit}
    (path : Path links first visits middle) (leads : visit.Leads links middle last) :
    Path links first (visits ++ [visit]) last := by
  induction path with
  | refl => exact .step leads (.refl _)
  | step former _ ih => exact .step former (ih leads)

/-- Without a visit all components stay as they are. -/
theorem eq_of_nil {first last : Seats C} (path : Path links first [] last) : first = last := by
  cases path
  rfl

/-- Visits move no component. -/
theorem isSome_eq {first last : Seats C} {visits : List Visit} (path : Path links first visits last)
    (id : ComponentId) : (last id).isSome = (first id).isSome := by
  induction path with
  | refl => rfl
  | @step _ _ _ visit _ leads _ ih =>
    rw [ih]
    obtain ⟨there, -⟩ := leads
    by_cases same : id = visit.cause.component links
    · rw [same, Function.update_self, there]
      rfl
    · rw [Function.update_of_ne same]

end Path

namespace Rank

/-- Taking over an answer that does not fail, and sending what it has to send, is a visit. -/
theorem visit_of_flush {cause : Cause} {rank last : Rank C} {id : ComponentId} {slot : Slot C}
    {reaction : Reaction C} (owned : rank.slot? id = some slot)
    (place : cause.component links = id) (now : rank.now = cause.now)
    (answers : Seat.reaction? links cause ⟨slot, rank.id⟩ = some reaction)
    (handed : flush slot reaction.sends (rank.absorb id slot reaction) = (last, none)) :
    ∃ visit : Visit, visit.cause = cause ∧ visit.Leads links rank.seats last.seats ∧
      postedOf links (rank.reactionDeeds id slot reaction) = visit.posted links ∧
      takenOf (rank.reactionDeeds id slot reaction) = [] := by
  obtain ⟨routed, routes, slots, same, posted, taken⟩ := @flush_none _ links id _ _ _ _ handed
  refine ⟨⟨cause, routed⟩, rfl, ?_, ?_, taken⟩
  · rw [seats_of_same slots same, seats_absorb reaction owned, ← place]
    refine @Visit.Leads.called _ _ links ⟨cause, routed⟩ rank.seats ⟨slot, rank.id⟩ _ ?_ ?_
    · rw [place, seats, owned]
      rfl
    · rw [Seat.answer?, answers, Option.bind_some, routes, Option.map_some]
  · rw [reactionDeeds, posted, Visit.posted, ← now]
    rfl

/-- The setup of a component that does not fail is a visit. -/
theorem visit_of_setup {rank last : Rank C} {id : ComponentId} {slot : Slot C}
    (owned : rank.slot? id = some slot) (now : rank.now = Instant.zero)
    (called : rank.setup id = (last, none)) :
    ∃ visit : Visit, visit.cause = .setup id ∧ visit.Leads links rank.seats last.seats ∧
      postedOf links (rank.setupDeeds id) = visit.posted links ∧
      takenOf (rank.setupDeeds id) = [] := by
  have answer := Seat.reaction?_setup links id ⟨slot, rank.id⟩
  have context : (⟨slot.name, rank.id, Instant.zero⟩ : Context) = rank.context slot := by
    rw [Rank.context, now]
  simp only [context] at answer
  rw [setup] at called
  rw [setupDeeds]
  simp only [owned] at called ⊢
  cases outcome : (Component.setup slot.component (rank.context slot)).outcome with
  | panicked panic =>
    simp only [outcome] at called
    cases called
  | completed =>
    simp only [outcome] at called answer ⊢
    exact visit_of_flush owned rfl now answer called
  | violated violation =>
    simp only [outcome] at called answer ⊢
    exact visit_of_flush owned rfl now answer called

/-- Dispatching an event without a failure is a visit. -/
theorem visit_of_dispatch {rank last : Rank C} {event : Scheduled Delivery}
    {pending : EventSet Delivery} (known : rank.links = links)
    (called : Rank.dispatch event { rank with pending } = (last, none)) :
    ∃ visit : Visit, visit.cause = .event event.entry ∧ visit.Leads links rank.seats last.seats ∧
      postedOf links (rank.dispatchDeeds event pending) = visit.posted links ∧
      takenOf (rank.dispatchDeeds event pending) = [event.entry] := by
  have place : rank.receiver event.payload =
      (links.getD event.payload.link default).endAt event.payload.arrival := by
    rw [receiver, link, known]
  rw [dispatch_eq] at called
  rw [dispatchDeeds, takeDeeds]
  cases owned : rank.slot? (rank.receiver event.payload).component with
  | none =>
    simp only [owned] at called
    cases called
  | some slot =>
    simp only [owned] at called ⊢
    have owned : (rank.take event pending).slot? (rank.receiver event.payload).component =
      some slot := owned
    rw [deliver] at called
    rw [deliverDeeds]
    by_cases receives : slot.receives (rank.receiver event.payload).port = true
    · rw [if_pos receives] at called ⊢
      have answer := @Seat.reaction?_event _ _ links event.entry ⟨slot, rank.id⟩ _
        (congrArg LinkEnd.port place.symm) receives
      have context : (⟨slot.name, rank.id, event.time⟩ : Context) =
          (rank.take event pending).context slot := rfl
      simp only [Scheduled.entry, context] at answer
      cases outcome : (Component.handle slot.component ((rank.take event pending).context slot)
          (rank.receiver event.payload).port event.payload.message).outcome with
      | completed =>
        simp only [outcome] at called answer ⊢
        have component : Cause.component links (.event event.entry) =
            (rank.receiver event.payload).component := congrArg LinkEnd.component place.symm
        obtain ⟨visit, cause, leads, posted, taken⟩ :=
          visit_of_flush owned component rfl answer called
        refine ⟨visit, cause, leads, ?_, ?_⟩
        · rw [postedOf_append, posted]
          rfl
        · rw [takenOf_append, taken]
          rfl
      | violated violation =>
        simp only [outcome] at called
        cases called
      | panicked panic =>
        simp only [outcome] at called
        cases called
    · rw [if_neg receives] at called
      cases called

end Rank

end Hooks

end Rally
