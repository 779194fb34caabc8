import Rally.Proofs.Pool.Determinacy
import Rally.Proofs.Threads.HookCalls
/-!
# Invariants of components

A custom says what the places of components are like, and what messages they send on which ports. Where hooks
keep to a custom as long as the messages that they handle do, all components and all messages keep to it in
every state of a run, whether some rank has failed or not.
-/

namespace Rally

/-- A custom of components. -/
structure Custom (C : Type) where
  /-- What the place of a component is like, whatever happens. -/
  slot : ComponentId → Slot C → Prop
  /-- What a component sends on a port. -/
  message : ComponentId → PortId → Message → Prop

variable {C : Type} {n : Nat} {plan : Plan n} {links : Array Link}

namespace Custom

variable (custom : Custom C)

/-- Whether the answer of a hook keeps to a custom. -/
structure Allows (id : ComponentId) (slot : Slot C) (reaction : Reaction C) : Prop where
  /-- The place of the component does. -/
  slot : custom.slot id { slot with component := reaction.component }
  /-- So do the messages. -/
  sends : ∀ send ∈ reaction.sends, custom.message id send.1 send.2

/-- Whether a message on its way is one that the component at the near end sends. -/
def Brings (links : Array Link) (delivery : Delivery) : Prop :=
  custom.message (delivery.source links).component (delivery.source links).port delivery.message

/-- Whether hooks keep to a custom, given messages that do. -/
structure Respected [Component C] (links : Array Link) : Prop where
  /-- Setup hooks keep to it. -/
  setup : ∀ id slot context, custom.slot id slot →
    custom.Allows id slot (Component.setup slot.component context)
  /-- So do those that handle messages. -/
  handle : ∀ (delivery : Delivery) slot context, delivery.link < links.size →
    custom.Brings links delivery → custom.slot (delivery.goal links).component slot →
    slot.receives (delivery.goal links).port = true →
      custom.Allows (delivery.goal links).component slot
        (Component.handle slot.component context (delivery.goal links).port delivery.message)
  /-- So do finish hooks. -/
  finish : ∀ id slot context, custom.slot id slot →
    custom.slot id { slot with component := (Component.finish slot.component context).component }

end Custom

/-- Whether a deed keeps to a custom. -/
def Deed.Observes (custom : Custom C) : Deed → Prop
  | handed _ _ handing => custom.message handing.component handing.port handing.message
  | _ => True

namespace Rank

variable {custom : Custom C} {rank last : Rank C} {id : ComponentId} {slot : Slot C}

/-- Whether the components of a rank keep to a custom. -/
def Observes (custom : Custom C) (rank : Rank C) : Prop :=
  ∀ id slot, rank.slot? id = some slot → custom.slot id slot

/-- Where the components stay in their places, they keep to it. -/
theorem Observes.of_slots (observes : rank.Observes custom) (same : last.slots = rank.slots) :
    last.Observes custom := by
  intro id slot owned
  rw [slot?, same] at owned
  exact observes id slot owned

/-- They do behind a hook that does. -/
theorem Observes.absorb (observes : rank.Observes custom) (owned : rank.slot? id = some slot)
    {reaction : Reaction C} (allowed : custom.slot id { slot with component := reaction.component }) :
    (rank.absorb id slot reaction).Observes custom := by
  intro other place there
  by_cases same : other = id
  · rw [same, slot?_absorb reaction owned, Option.some.injEq] at there
    rw [same, ← there]
    exact allowed
  · rw [slot?_absorb_of_ne rank slot reaction same] at there
    exact observes other place there

/-- Messages that keep to a custom are handed to links. -/
theorem observes_flushDeeds {sends : List (PortId × Message)}
    (allowed : ∀ send ∈ sends, custom.message id send.1 send.2) (rank : Rank C) :
    ∀ deed ∈ flushDeeds id slot sends rank, deed.Observes custom := by
  induction sends generalizing rank with
  | nil => exact fun deed inside => absurd inside List.not_mem_nil
  | cons first rest ih =>
    obtain ⟨port, message⟩ := first
    rw [flushDeeds]
    split
    · next binding bound =>
      intro deed inside
      rcases List.mem_append.mp inside with own | later
      · rw [sendDeeds] at own
        rcases List.mem_cons.mp own with rfl | added
        · exact allowed _ List.mem_cons_self
        · split at added
          · rw [List.mem_singleton.mp added]
            trivial
          · cases added
      · exact ih (fun send among => allowed send (List.mem_cons_of_mem _ among)) _ deed later
    · exact fun deed inside => absurd inside List.not_mem_nil

variable [Component C]

/-- A setup hook keeps to a custom. -/
theorem Observes.setup (observes : rank.Observes custom) (respected : custom.Respected links)
    (id : ComponentId) : (rank.setup id).1.Observes custom ∧
      ∀ deed ∈ rank.setupDeeds id, deed.Observes custom := by
  rw [Rank.setup, setupDeeds]
  cases owned : rank.slot? id with
  | none => exact ⟨observes, fun deed inside => absurd inside List.not_mem_nil⟩
  | some slot =>
    have allows := respected.setup id slot (rank.context slot) (observes id slot owned)
    have absorbed := observes.absorb owned allows.slot
    have flushed := absorbed.of_slots
      (slots_flush slot (Component.setup slot.component (rank.context slot)).sends _)
    have handed := @observes_flushDeeds _ custom id slot _ allows.sends
      (rank.absorb id slot (Component.setup slot.component (rank.context slot)))
    cases outcome : (Component.setup slot.component (rank.context slot)).outcome with
    | panicked panic =>
      simp only [outcome]
      refine ⟨absorbed, fun deed inside => ?_⟩
      rw [List.mem_singleton.mp inside]
      trivial
    | completed | violated =>
      simp only [outcome]
      refine ⟨flushed, fun deed inside => ?_⟩
      rcases List.mem_cons.mp inside with rfl | later
      · trivial
      · exact handed deed later

/-- So does the dispatch of an event. -/
theorem Observes.dispatch (observes : rank.Observes custom) (respected : custom.Respected links)
    (same : rank.links = links) {event : Scheduled Delivery} (pending : EventSet Delivery)
    (known : event.payload.link < links.size) (brings : custom.Brings links event.payload) :
    (Rank.dispatch event { rank with pending }).1.Observes custom ∧
      ∀ deed ∈ rank.dispatchDeeds event pending, deed.Observes custom := by
  have goal : rank.receiver event.payload = event.payload.goal links := by
    rw [receiver, link, same]
    rfl
  have taken : ∀ deed ∈ rank.takeDeeds event pending, deed.Observes custom := by
    intro deed inside
    rw [takeDeeds] at inside
    split at inside
    · cases inside
    · rw [List.mem_singleton.mp inside]
      trivial
  have took : (rank.take event pending).Observes custom := observes.of_slots rfl
  rw [dispatch_eq, dispatchDeeds]
  simp only [goal]
  cases owned : rank.slot? (event.payload.goal links).component with
  | none => exact ⟨took, by rwa [List.append_nil]⟩
  | some slot =>
    have there : (rank.take event pending).slot? (event.payload.goal links).component = some slot := owned
    simp only [deliver, deliverDeeds]
    cases receives : slot.receives (event.payload.goal links).port with
    | false =>
      simp only [Bool.false_eq_true, if_false, List.append_nil]
      exact ⟨took.of_slots rfl, taken⟩
    | true =>
      have allows := respected.handle event.payload slot ((rank.take event pending).context slot) known
        brings (observes _ slot owned) receives
      have absorbed := took.absorb there allows.slot
      have flushed := absorbed.of_slots (slots_flush slot (Component.handle slot.component
        ((rank.take event pending).context slot) (event.payload.goal links).port
          event.payload.message).sends _)
      have handed := @observes_flushDeeds _ custom _ slot _ allows.sends
        ((rank.take event pending).absorb (event.payload.goal links).component slot
          (Component.handle slot.component ((rank.take event pending).context slot)
            (event.payload.goal links).port event.payload.message))
      simp only [if_true]
      cases outcome : (Component.handle slot.component ((rank.take event pending).context slot)
          (event.payload.goal links).port event.payload.message).outcome with
      | completed =>
        refine ⟨flushed, fun deed inside => ?_⟩
        rcases List.mem_append.mp inside with own | later
        · exact taken deed own
        · exact handed deed later
      | violated violation => exact ⟨absorbed.of_slots rfl, by rwa [List.append_nil]⟩
      | panicked panic => exact ⟨absorbed, by rwa [List.append_nil]⟩

/-- So does a finish hook. -/
theorem Observes.finishOne (observes : rank.Observes custom) (respected : custom.Respected links)
    (id : ComponentId) : (rank.finishOne id).1.Observes custom := by
  rw [Rank.finishOne]
  cases owned : rank.slot? id with
  | none => exact observes
  | some slot =>
    have absorbed := observes.absorb owned
      (respected.finish id slot (rank.context slot) (observes id slot owned))
    simp only
    split
    · exact absorbed
    · split
      · exact absorbed
      · exact absorbed.of_slots rfl

end Rank

namespace System

variable {custom : Custom C} {system next : System C n} {index : Fin n} {first : Fin n → Rank C}

/-- Whether all components and messages of a run keep to a custom. -/
structure Observes (custom : Custom C) (system : System C n) : Prop where
  /-- The components of each rank do. -/
  slots : ∀ index, (system.threads index).rank.Observes custom
  /-- So do the messages that each rank handed to links. -/
  deeds : ∀ index, ∀ deed ∈ (system.threads index).history, deed.Observes custom

/-- What is on its way keeps to it as well. -/
theorem Observes.brings (observes : system.Observes custom) (flowing : system.Flowing plan links)
    (covers : plan.Covers links) (carried : system.Carried plan) {delivery : Delivery}
    (transports : system.Transports delivery) : custom.Brings links delivery := by
  obtain ⟨near, link, side, handing, there, rfl⟩ := flowing.handed covers carried transports
  obtain ⟨-, place⟩ := flowing.addressed.deeds near _ there
  have source : Delivery.source links ⟨link, side.opposite, handing.message⟩ =
      ⟨handing.component, handing.port, plan.ids near⟩ := by
    rw [Delivery.source, Side.opposite_opposite]
    exact place
  rw [Custom.Brings, source]
  exact observes.deeds near _ there

variable [Component C]

/-- A step keeps to a custom that hooks respect. -/
theorem Observes.step (observes : system.Observes custom) (respected : custom.Respected links)
    (kept : system.Kept plan links first) (covers : plan.Covers links)
    (stepped : system.step plan index = some next) : next.Observes custom := by
  obtain ⟨⟨thread, effect⟩, moved, rfl⟩ := Option.map_eq_some_iff.mp stepped
  have slots := observes.slots index
  obtain ⟨deeds, history, behaves⟩ := Thread.behaves_of_step moved
  obtain ⟨behind, acts⟩ : thread.rank.Observes custom ∧ ∀ deed ∈ deeds, deed.Observes custom := by
    generalize thread.rank = last at behaves
    cases behaves with
    | setup => exact slots.setup respected _
    | @dispatch event pending before turn =>
      have waits := ((kept.steady.threads index).timed.sound.first_of_pop (Rank.turn_ok turn).1).1
      exact slots.dispatch respected (kept.steady.wired.links index) pending
        (kept.flowing.addressed.pending index event waits).known
        (observes.brings kept.flowing covers kept.steady.carried (.waits waits))
    | finish => exact ⟨slots.finishOne respected _, fun deed none => absurd none List.not_mem_nil⟩
    | quiet _ same _ _ _ still =>
      refine ⟨slots.of_slots same, fun deed inside => ?_⟩
      obtain ⟨time, last, rfl⟩ := still deed inside
      trivial
  refine ⟨forall_withThread (P := fun _ thread => thread.rank.Observes custom) behind observes.slots,
    forall_withThread (P := fun _ thread => ∀ deed ∈ thread.history, deed.Observes custom) ?_
      observes.deeds⟩
  intro deed inside
  rw [history] at inside
  rcases List.mem_append.mp inside with old | new
  · exact observes.deeds index deed old
  · exact acts deed new

end System

/-- In every run of a simulation all components and messages keep to a custom that hooks respect, if the
components do before it. -/
theorem Simulation.observes_of_exec [Component C] {registry : Registry C} {options : Options} {topology : Topology}
    {clock : Instant} {journal : Journal} {simulation : Simulation C} {assembly : Assembly C}
    {custom : Custom C} {filter : Filter} {schedule : List (Fin simulation.ranks.length)}
    {system : System C simulation.ranks.length}
    (built : (build registry options topology clock journal).2 = .ok simulation)
    (realizes : simulation.Realizes registry topology assembly)
    (respected : custom.Respected assembly.links)
    (fresh : ∀ id seat, simulation.places id = some seat → custom.slot id seat.slot)
    (reached : (simulation.launch filter).exec simulation.plan schedule = some system) :
    system.Observes custom := by
  refine System.exec_induction ⟨fun index id slot owned => ?_, fun index deed inside => (by cases inside)⟩
    (fun turns former latter index arrives observes stepped =>
      observes.step respected (kept_of_exec built realizes arrives) realizes.covers stepped) reached
  have there : ((simulation.launch filter).threads index).rank.seats id =
      some ⟨slot, simulation.plan.ids index⟩ := by
    rw [Rank.seats, owned]
    rfl
  refine fresh id ⟨slot, simulation.plan.ids index⟩ ?_
  rw [← seats_launch filter simulation, Pool.seats_ofRanks (housing_of_build built realizes filter).apart]
  exact ⟨index, there⟩

end Rally
