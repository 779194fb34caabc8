import Rally.Proofs.Threads.LinkDirections
import Rally.Proofs.Threads.WindowBounds
/-!
# Messages on their way between threads

Along a way, the messages that were dispatched at its far end, those that wait there, those in the
channel, and those that the near end has not posted are together all that was handed to the link,
in this order. Every step of a thread keeps it so: parcels never overtake each other, and where they
are scheduled together, those of one way keep their order.
-/

namespace Rally

/-- Both ends of the link of a position are placed on ranks with threads. -/
theorem Plan.Covers.placed_at {n : Nat} {plan : Plan n} {links : Array Link}
    (covers : plan.Covers links) {id : LinkId} (known : id < links.size) (side : Side) :
    ∃ index, plan.ids index = ((links.getD id default).endAt side).rank := by
  rw [Array.getD_eq_getD_getElem?, Array.getElem?_eq_getElem known, Option.getD_some]
  exact covers.placed _ (Array.getElem_mem_toList known) side

/-- What is due on a way was handed to its link. -/
theorem Way.exists_handed {way : Way} {links : Array Link} {deeds : List Deed}
    {entry : Instant × Delivery} (inside : entry ∈ way.sent links deeds) :
    ∃ handing, Deed.handed way.link way.side handing ∈ deeds ∧
      entry.2 = ⟨way.link, way.side.opposite, handing.message⟩ := by
  obtain ⟨handing, among, rfl⟩ := List.mem_map.mp inside
  obtain ⟨deed, there, tells⟩ := List.mem_filterMap.mp among
  cases deed with
  | handed link side own =>
    rw [Deed.handing?] at tells
    split at tells
    · next here =>
      obtain ⟨rfl, rfl⟩ := here
      cases tells
      exact ⟨handing, there, rfl⟩
    · cases tells
  | _ => cases tells

namespace System

variable {C : Type} {n : Nat} {plan : Plan n} {links : Array Link} {system next : System C n}
  {index : Fin n}

/-- What is needed of the threads of a run, on one rank or on several. -/
structure Steady (plan : Plan n) (links : Array Link) (system : System C n) : Prop where
  /-- The ranks are tied to the links. -/
  wired : system.Wired plan links
  /-- The threads are in time. -/
  threads : ∀ index, (system.threads index).OnTime plan
  /-- Parcels are addressed and in order. -/
  carried : system.Carried plan
  /-- No parcel to be scheduled is due before the last event taken. -/
  due : ∀ index, ∀ parcel ∈ (system.threads index).taken,
    (system.threads index).rank.pending.last ≤ parcel.time

/-- What a thread has taken out of its channel is due behind its window. -/
theorem Timely.isFor_taken (timely : system.Timely plan links) {parcel : Parcel}
    (inside : parcel ∈ (system.threads index).taken) :
    Thread.IsFor plan (system.threads index).start parcel := by
  obtain ⟨ledger, recorded, punctual⟩ := timely.punctual
  rw [recorded.start_eq index]
  exact (punctual.posted index _ (punctual.taken index parcel inside)).2

/-- The threads of a regular run are steady. -/
theorem Timely.steady (timely : system.Timely plan links) : system.Steady plan links := by
  obtain ⟨ledger, -, punctual⟩ := timely.punctual
  refine ⟨timely.wired, punctual.threads, timely.regular.carried, fun index parcel inside => ?_⟩
  obtain ⟨bound, ends, behind⟩ := timely.isFor_taken inside
  exact le_trans ((punctual.threads index).reached bound ends) behind

/-- A single thread is steady. -/
theorem Solo.steady (solo : system.Solo plan links) (carried : system.Carried plan) :
    system.Steady plan links := by
  refine ⟨solo.wired, solo.threads, carried, fun index parcel inside => ?_⟩
  have none : (system.threads index).taken = [] :=
    (solo.phases index).elim Thread.taken_of_inWindow Thread.taken_of_isOver
  rw [none] at inside
  cases inside

/-- How the events, parcels and deeds of a run are placed. -/
structure Addressed (plan : Plan n) (links : Array Link) (system : System C n) : Prop where
  /-- The events to come on a rank are for its components. -/
  pending : ∀ index, ∀ event ∈ (system.threads index).rank.pending.inOrder,
    event.payload.IsFor links (plan.ids index)
  /-- What a thread has not posted is addressed as its link leads. -/
  unsent : ∀ index, ∀ parcel ∈ (system.threads index).unsent, parcel.Addressed links
  /-- So is what is on its way to a thread. -/
  inbound : ∀ index, ∀ parcel ∈ system.inbound index, parcel.Addressed links
  /-- The deeds of a rank are at the ends of links that are placed on it. -/
  deeds : ∀ index, ∀ deed ∈ (system.threads index).history, deed.Sited links (plan.ids index)

/-- A rank that acts knows where its events and parcels go. -/
theorem Addressed.routed (addressed : system.Addressed plan links)
    (steady : system.Steady plan links)
    (before : (system.threads index).unsent = (system.threads index).rank.outgoing.reverse) :
    (system.threads index).rank.Routed links := by
  refine ⟨steady.wired.links index, steady.wired.wired index, (steady.threads index).timed.sound,
    (steady.threads index).timed.clock, fun event inside => ?_, fun parcel inside => ?_⟩
  · rw [steady.wired.ids index]
    exact addressed.pending index event inside
  · refine addressed.unsent index parcel ?_
    rw [before]
    exact List.mem_reverse.mpr inside

/-- What a rank schedules together is added in the order of the parcels. -/
theorem Steady.entries (steady : system.Steady plan links) (index : Fin n) :
    ((system.threads index).rank.receive (system.threads index).taken).pending.inOrder.map
        Scheduled.entry =
      (system.threads index).rank.pending.inOrder.map Scheduled.entry ++
        ((system.threads index).taken.mergeSort Parcel.le).map Parcel.entry :=
  (Rank.foldl_add (steady.threads index).timed.sound _ fun parcel inside =>
    steady.due index parcel (List.mem_mergeSort.mp inside)).2.2.1

/-- Events, parcels and deeds of a thread are still placed behind a step. -/
theorem Addressed.thread_step (addressed : system.Addressed plan links)
    (steady : system.Steady plan links) {thread : Thread C} {effect : Effect n}
    (carries : Thread.Carries plan (system.view index) (system.threads index) thread effect) :
    (∀ event ∈ thread.rank.pending.inOrder, event.payload.IsFor links (plan.ids index)) ∧
      (∀ parcel ∈ thread.unsent, parcel.Addressed links) ∧
      ∀ deed ∈ thread.history, deed.Sited links (plan.ids index) := by
  have id := steady.wired.ids index
  have pending := addressed.pending index
  have unsent := addressed.unsent index
  have deeds := addressed.deeds index
  cases carries with
  | acted course history before behind =>
    obtain ⟨routed, sited⟩ := (addressed.routed steady before).course course
    have same : thread.rank.id = plan.ids index := course.keeps_links.1.trans id
    refine ⟨?_, ?_, fun deed inside => ?_⟩
    · rw [← same]
      exact routed.held
    · rw [behind]
      exact fun parcel inside => routed.outgoing parcel (List.mem_reverse.mp inside)
    · rw [history] at inside
      rcases List.mem_append.mp inside with old | new
      · exact deeds deed old
      · rw [← id]
        exact sited deed new
  | posted known whole rank _ history =>
    rw [rank, history]
    exact ⟨pending, fun parcel inside => unsent parcel (by
      rw [whole]; exact List.mem_cons_of_mem _ inside), deeds⟩
  | lost unknown whole rank _ history =>
    rw [rank, history]
    exact ⟨pending, fun parcel inside => unsent parcel (by
      rw [whole]; exact List.mem_append_right _ inside), deeds⟩
  | took inbox same rank _ history =>
    rw [rank, history, same]
    exact ⟨pending, unsent, deeds⟩
  | scheduled inbox same rank _ history =>
    rw [rank, history, same]
    refine ⟨fun event inside => ?_, unsent, fun deed inside => ?_⟩
    · have there : event.entry ∈ ((system.threads index).rank.receive
          (system.threads index).taken).pending.inOrder.map Scheduled.entry :=
        List.mem_map_of_mem inside
      rw [steady.entries index, List.mem_append] at there
      rcases there with old | new
      · obtain ⟨other, former, same⟩ := List.mem_map.mp old
        rw [← (Prod.mk.inj same).2]
        exact pending other former
      · obtain ⟨parcel, former, same⟩ := List.mem_map.mp new
        have taken : parcel ∈ system.inbound index :=
          List.mem_append_left _ (List.mem_mergeSort.mp former)
        rw [← (Prod.mk.inj same).2, ← (steady.carried.inbound index parcel taken).1]
        exact (addressed.inbound index parcel taken).goal
    · rcases List.mem_append.mp inside with old | new
      · exact deeds deed old
      · exact Rank.sited_addDeeds _ _ _ deed new
  | kept quiet same rank _ history =>
    rw [rank, history, same]
    exact ⟨pending, unsent, deeds⟩

/-- The messages of a way from one thread to another, as they are due: those dispatched, those that
wait, and those on their way. -/
def passed (way : Way) (links : Array Link) (near far : Fin n) (system : System C n) :
    List (Instant × Delivery) :=
  way.arrived (system.threads far).history ++ way.waiting (system.threads far).rank ++
    (system.lane (way.conveys links) near far).map Parcel.entry

/-- What is handed to links, as it is due, is dispatched in this order. -/
structure Flowing (plan : Plan n) (links : Array Link) (system : System C n) : Prop where
  /-- Events, parcels and deeds are placed. -/
  addressed : system.Addressed plan links
  /-- A rank hands messages to a link in the order in which they are due. -/
  ascending : ∀ way index, (Way.sent way links (system.threads index).history).Pairwise
    fun x y => x.1 ≤ y.1
  /-- None of them is due behind one that is handed to it now. -/
  sent : ∀ way index, ∀ entry ∈ Way.sent way links (system.threads index).history,
    entry.1 ≤ (system.threads index).rank.now.saturatingAdd (way.latency links)
  /-- What is handed to a link is dispatched, waits, or is on its way. -/
  conserved : ∀ way near far, plan.ids near = (Way.near way links).rank →
    plan.ids far = (Way.far way links).rank →
      system.passed way links near far = way.sent links (system.threads near).history

/-- Parcels that are conveyed along a way go from one thread to another. -/
theorem connects_conveys {way : Way} {near far : Fin n}
    (source : plan.ids near = (way.near links).rank) (goal : plan.ids far = (way.far links).rank) :
    Connects plan (way.conveys links) near far := by
  intro parcel conveyed
  simp only [Way.conveys, Bool.and_eq_true, beq_iff_eq] at conveyed
  exact ⟨conveyed.1.2.trans source.symm, conveyed.2.trans goal.symm⟩

/-- What was dispatched on a thread or waits there is the beginning of what was handed to the
link. -/
theorem Flowing.received (flowing : system.Flowing plan links) (covers : plan.Covers links)
    (way : Way) (index : Fin n) :
    way.arrived (system.threads index).history ++ way.waiting (system.threads index).rank = [] ∨
      ∃ near, plan.ids near = (way.near links).rank ∧ plan.ids index = (way.far links).rank ∧
        way.arrived (system.threads index).history ++ way.waiting (system.threads index).rank <+:
          way.sent links (system.threads near).history := by
  by_cases none : way.arrived (system.threads index).history ++
      way.waiting (system.threads index).rank = []
  · exact Or.inl none
  · right
    obtain ⟨entry, inside⟩ := List.exists_mem_of_ne_nil _ none
    -- The link of a message that is here is one of those that are covered.
    obtain ⟨known, here⟩ : way.link < links.size ∧ (way.far links).rank = plan.ids index := by
      rcases List.mem_append.mp inside with old | waits
      · rw [Way.arrived, List.mem_filter] at old
        exact way.far_of_bears (Way.isFor_of_dispatched (flowing.addressed.deeds index) old.1) old.2
      · rw [Way.waiting, List.mem_filter] at waits
        obtain ⟨event, there, rfl⟩ := List.mem_map.mp waits.1
        exact way.far_of_bears (flowing.addressed.pending index event there) waits.2
    obtain ⟨near, source⟩ := covers.placed_at known way.side
    refine ⟨near, source, here.symm, ?_⟩
    rw [← flowing.conserved way near index source here.symm]
    exact List.prefix_append _ _

/-- The deliveries that are on their way, and those that were dispatched. -/
inductive Transports (system : System C n) : Delivery → Prop where
  /-- It waits on a rank. -/
  | waits {index : Fin n} {event : Scheduled Delivery}
      (inside : event ∈ (system.threads index).rank.pending.inOrder) : Transports system event.payload
  /-- A thread has not posted it. -/
  | unsent {index : Fin n} {parcel : Parcel} (inside : parcel ∈ (system.threads index).unsent) :
      Transports system parcel.delivery
  /-- It is posted to a thread that has not scheduled it. -/
  | inbound {index : Fin n} {parcel : Parcel} (inside : parcel ∈ system.inbound index) :
      Transports system parcel.delivery
  /-- It was dispatched. -/
  | dispatched {index : Fin n} {event : Scheduled Delivery} {arrival : Arrival}
      (inside : .dispatched event arrival ∈ (system.threads index).history) :
      Transports system event.payload

/-- Whether a delivery is what becomes of a message that was handed to a link. -/
def Handed (system : System C n) (delivery : Delivery) : Prop :=
  ∃ index link side handing, Deed.handed link side handing ∈ (system.threads index).history ∧
    delivery = ⟨link, side.opposite, handing.message⟩

/-- What is on its way or was dispatched was handed to a link. -/
theorem Flowing.handed (flowing : system.Flowing plan links) (covers : plan.Covers links)
    (carried : system.Carried plan) {delivery : Delivery} (transports : system.Transports delivery) :
    system.Handed delivery := by
  have arrives {index : Fin n} {event : Scheduled Delivery}
      (inside : event.entry ∈ Way.arrived ⟨event.payload.link, event.payload.arrival.opposite⟩
          (system.threads index).history ++
        Way.waiting ⟨event.payload.link, event.payload.arrival.opposite⟩ (system.threads index).rank) :
      system.Handed event.payload := by
    rcases flowing.received covers _ index with none | ⟨near, -, -, begins⟩
    · rw [none] at inside
      cases inside
    · obtain ⟨handing, there, same⟩ := Way.exists_handed (begins.subset inside)
      exact ⟨near, _, _, handing, there, same⟩
  -- A parcel goes from the thread of one end of its link to that of the other end.
  have passes {near far : Fin n} {parcel : Parcel} (addressed : parcel.Addressed links)
      (source : plan.ids near = parcel.origin) (goal : plan.ids far = parcel.target)
      (inside : parcel ∈ system.inbound far ++ (system.threads near).unsent) :
      system.Handed parcel.delivery := by
    let way : Way := ⟨parcel.delivery.link, parcel.delivery.arrival.opposite⟩
    have conveyed : way.conveys links parcel = true := by
      rw [Way.conveys_eq addressed]
      exact (way.bears_iff : way.bears parcel.entry = true ↔ _).mpr rfl
    have ahead : plan.ids far = (way.far links).rank := by
      rw [Way.far, Side.opposite_opposite]
      exact goal.trans addressed.goal.here.symm
    have whole := flowing.conserved way near far (source.trans addressed.source.symm) ahead
    have among : parcel.entry ∈ system.passed way links near far :=
      List.mem_append_right _ (List.mem_map_of_mem (List.mem_filter.mpr ⟨inside, conveyed⟩))
    rw [whole] at among
    obtain ⟨handing, there, same⟩ := Way.exists_handed among
    exact ⟨near, _, _, handing, there, same⟩
  cases transports with
  | @waits index event inside =>
    exact arrives (List.mem_append_right _
      (List.mem_filter.mpr ⟨List.mem_map_of_mem inside, (Way.bears_iff _).mpr rfl⟩))
  | @dispatched index event arrival inside =>
    have taken : event ∈ (system.threads index).history.filterMap Deed.event? :=
      List.mem_filterMap.mpr ⟨_, inside, rfl⟩
    exact arrives (List.mem_append_left _
      (List.mem_filter.mpr ⟨List.mem_map_of_mem taken, (Way.bears_iff _).mpr rfl⟩))
  | @unsent index parcel inside =>
    have addressed := flowing.addressed.unsent index parcel inside
    obtain ⟨far, goal⟩ := covers.placed_at addressed.goal.known parcel.delivery.arrival
    exact passes addressed (carried.unsent index parcel inside).symm
      (goal.trans addressed.goal.here) (List.mem_append_right _ inside)
  | @inbound index parcel inside =>
    have addressed := flowing.addressed.inbound index parcel inside
    obtain ⟨target, near, source⟩ := carried.inbound index parcel inside
    exact passes addressed source.symm target.symm (List.mem_append_left _ inside)

/-- The messages of every way flow on every thread. -/
theorem Flowing.flows (flowing : system.Flowing plan links) (covers : plan.Covers links)
    (distinct : Function.Injective plan.ids) (steady : system.Steady plan links) (way : Way)
    (index : Fin n) : (system.threads index).rank.Flows way links (system.threads index).history := by
  refine ⟨flowing.ascending way index, flowing.sent way index, ?_, fun source goal => ?_⟩
  · rcases flowing.received covers way index with none | ⟨near, -, -, beginning⟩
    · rw [none]
      exact .nil
    · exact (flowing.ascending way near).sublist beginning.sublist
  · rcases flowing.received covers way index with none | ⟨near, other, -, beginning⟩
    · rw [none]
      exact fun entry inside => (List.not_mem_nil inside).elim
    · obtain rfl : near = index := distinct (by rw [other, source, steady.wired.ids])
      exact fun entry inside => flowing.sent way near entry (beginning.subset inside)

/-- Where parcels of a way were taken out of the channel, they are scheduled in their order. -/
theorem Flowing.sorted_taken (flowing : system.Flowing plan links)
    (steady : system.Steady plan links) {way : Way} {near far : Fin n}
    (source : plan.ids near = (way.near links).rank) (goal : plan.ids far = (way.far links).rank) :
    ((system.threads far).taken.mergeSort Parcel.le).filter (way.conveys links) =
      (system.threads far).taken.filter (way.conveys links) := by
  have connects := connects_conveys source goal
  have part : ((system.threads far).taken.filter (way.conveys links)).Sublist
      (system.lane (way.conveys links) near far) := by
    rw [lane, inbound, List.append_assoc, List.filter_append]
    exact List.sublist_append_left _ _
  have serials := (steady.carried.orderly _ near far connects).1.sublist part
  have times : ((system.threads far).taken.filter (way.conveys links)).Pairwise
      fun x y => x.time ≤ y.time := by
    have whole := flowing.ascending way near
    rw [← flowing.conserved way near far source goal, passed, List.pairwise_append] at whole
    exact (List.pairwise_map.mp whole.2.1).sublist part
  have ordered : ((system.threads far).taken.filter (way.conveys links)).Pairwise
      fun x y => x.le y = true := by
    refine (serials.and times).imp_of_mem fun {x y} insideX insideY both => ?_
    have fromX := (connects x (List.mem_filter.mp insideX).2).1
    have fromY := (connects y (List.mem_filter.mp insideY).2).1
    rw [Parcel.le_iff]
    rcases lt_or_eq_of_le both.2 with early | same
    · exact Or.inl early
    · exact Or.inr ⟨same, Or.inr ⟨fromX.trans fromY.symm, Nat.le_of_lt both.1⟩⟩
  have kept := (List.sublist_mergeSort Parcel.le_trans Parcel.le_total ordered
    List.filter_sublist).filter (way.conveys links)
  simp only [List.filter_filter, Bool.and_self] at kept
  exact (kept.eq_of_length
    ((List.mergeSort_perm _ Parcel.le).filter (way.conveys links)).length_eq.symm).symm

/-- Between two components of a rank nothing is on its way. -/
theorem Addressed.lane_eq_nil (addressed : system.Addressed plan links) {way : Way}
    (same : (way.near links).rank = (way.far links).rank) (near far : Fin n) :
    system.lane (way.conveys links) near far = [] := by
  rw [lane, List.filter_eq_nil_iff]
  intro parcel inside
  have known : parcel.Addressed links := by
    rcases List.mem_append.mp inside with old | own
    · exact addressed.inbound far parcel old
    · exact addressed.unsent near parcel own
  rw [Way.conveys_eq known, Way.not_carries known same]
  exact Bool.false_ne_true

/-- Where a rank acts, what it hands to a link joins the messages of its way. -/
theorem Flowing.passed_acted (flowing : system.Flowing plan links) (covers : plan.Covers links)
    (distinct : Function.Injective plan.ids) (steady : system.Steady plan links)
    {within : Instant → Prop} {deeds : List Deed} {thread : Thread C}
    (course : Rank.Course within (system.threads index).rank deeds thread.rank)
    (history : thread.history = (system.threads index).history ++ deeds)
    (before : (system.threads index).unsent = (system.threads index).rank.outgoing.reverse)
    (behind : thread.unsent = thread.rank.outgoing.reverse)
    (taken : thread.taken = (system.threads index).taken) {way : Way} {near far : Fin n}
    (source : plan.ids near = (way.near links).rank) (goal : plan.ids far = (way.far links).rank) :
    ((system.apply index .idle).withThread index thread).passed way links near far =
      way.sent links
        (((system.apply index .idle).withThread index thread).threads near).history := by
  have conserved := flowing.conserved way near far source goal
  have id := steady.wired.ids index
  have routed := flowing.addressed.routed steady before
  obtain ⟨-, waiting, laid⟩ :=
    (flowing.flows covers distinct steady way index).course routed course
  have sited := (routed.course course).2
  have arriving : (if far = index then thread.taken ++ system.channels index
      else system.inbound far) = system.inbound far := by
    by_cases here : far = index
    · rw [if_pos here, taken, here]
      rfl
    · rw [if_neg here]
  rw [passed, lane_idle, arriving, List.filter_append, List.map_append]
  rw [passed, lane, List.filter_append, List.map_append] at conserved
  by_cases here : far = index
  · have mine : (way.far links).rank = (system.threads index).rank.id := by rw [← goal, here, id]
    rw [if_pos mine] at waiting laid
    rw [List.append_nil] at laid
    subst here
    by_cases own : near = far
    · -- The rank sends the message to itself, and no parcel is on its way.
      subst own
      have none := flowing.addressed.lane_eq_nil (source.symm.trans goal) near near
      rw [lane, List.filter_append, List.append_eq_nil_iff] at none
      rw [none.1, none.2, List.map_nil, List.append_nil, List.append_nil] at conserved
      rw [threads_withThread_self, if_pos rfl, none.1, behind, ← Way.laid, laid, Way.laid, ← before,
        none.2, List.map_nil, List.append_nil, List.append_nil, history, Way.arrived_append,
        Way.sent_append, List.append_assoc, waiting, ← List.append_assoc, conserved]
    · have nothing : way.sent links deeds = [] := by
        refine way.sent_of_ne sited fun same => own ?_
        exact distinct (by rw [source, same, id])
      rw [nothing, List.append_nil] at waiting
      rw [threads_withThread_self, threads_withThread_of_ne own, if_neg own, history,
        Way.arrived_append, List.append_assoc (way.arrived _), waiting, conserved]
  · have away : (way.far links).rank ≠ (system.threads index).rank.id := by
      rw [← goal, id]
      exact fun same => here (distinct same)
    rw [if_neg away] at waiting laid
    by_cases own : near = index
    · subst own
      rw [threads_withThread_self, threads_withThread_of_ne here, if_pos rfl, behind, ← Way.laid,
        laid, Way.laid, ← before, history, Way.sent_append, ← conserved]
      simp only [List.append_assoc]
    · rw [threads_withThread_of_ne own, threads_withThread_of_ne here, if_neg own, conserved]

/-- Where a rank schedules what its thread took out of the channel, it waits on the rank. -/
theorem Flowing.passed_scheduled (flowing : system.Flowing plan links)
    (steady : system.Steady plan links) {thread : Thread C} (inbox : system.channels index = [])
    (unsent : thread.unsent = (system.threads index).unsent)
    (rank : thread.rank = (system.threads index).rank.receive (system.threads index).taken)
    (taken : thread.taken = [])
    (history : thread.history = (system.threads index).history ++
      (system.threads index).rank.receiveDeeds (system.threads index).taken) {way : Way}
    {near far : Fin n} (source : plan.ids near = (way.near links).rank)
    (goal : plan.ids far = (way.far links).rank) :
    ((system.apply index .idle).withThread index thread).passed way links near far =
      way.sent links
        (((system.apply index .idle).withThread index thread).threads near).history := by
  have conserved := flowing.conserved way near far source goal
  obtain ⟨nothing, none⟩ := Rank.addDeeds_plain way links
    ((system.threads index).taken.mergeSort Parcel.le) (system.threads index).rank.pending
  rw [← Rank.receiveDeeds] at nothing none
  have leaving : (if near = index then thread.unsent else (system.threads near).unsent) =
      (system.threads near).unsent := by
    by_cases own : near = index
    · rw [if_pos own, own, unsent]
    · rw [if_neg own]
  have sent : way.sent links
      (((system.apply index .idle).withThread index thread).threads near).history =
        way.sent links (system.threads near).history := by
    by_cases own : near = index
    · rw [own, threads_withThread_self, history, Way.sent_append, nothing, List.append_nil]
    · rw [threads_withThread_of_ne own]
  rw [sent, ← conserved, passed, passed, lane_idle, leaving, lane]
  by_cases here : far = index
  · subst here
    have sorted := flowing.sorted_taken steady source goal
    have waits : way.waiting thread.rank = way.waiting (system.threads far).rank ++
        ((system.threads far).taken.filter (way.conveys links)).map Parcel.entry := by
      have whole : (((system.threads far).taken.mergeSort Parcel.le).map Parcel.entry).filter
          way.bears = ((system.threads far).taken.filter (way.conveys links)).map Parcel.entry := by
        rw [List.filter_map, ← sorted]
        refine congrArg _ (List.filter_congr fun parcel inside => ?_)
        refine (Way.conveys_eq (flowing.addressed.inbound far parcel ?_)).symm
        exact List.mem_append_left _ (List.mem_mergeSort.mp inside)
      rw [rank, Way.waiting, steady.entries far, List.filter_append, whole]
      rfl
    rw [threads_withThread_self, if_pos rfl, history, Way.arrived_append, none, List.append_nil,
      waits, taken, inbound, inbox, List.append_nil, List.append_nil, List.nil_append,
      List.filter_append, List.map_append]
    simp only [List.append_assoc]
  · rw [threads_withThread_of_ne here, if_neg here]

/-- Where neither histories nor events change, and the parcels on their way stay the same, so do the
messages of a way. -/
theorem passed_of_same {thread : Thread C} {effect : Effect n} {way : Way} {near far : Fin n}
    (history : thread.history = (system.threads index).history)
    (pending : thread.rank.pending = (system.threads index).rank.pending)
    (lane : ((system.apply index effect).withThread index thread).lane (way.conveys links) near far =
      system.lane (way.conveys links) near far) :
    ((system.apply index effect).withThread index thread).passed way links near far =
        system.passed way links near far ∧
      way.sent links
          (((system.apply index effect).withThread index thread).threads near).history =
        way.sent links (system.threads near).history := by
  have histories : ∀ other,
      (((system.apply index effect).withThread index thread).threads other).history =
        (system.threads other).history := congr_withThread history
  have waiting : way.waiting
      (((system.apply index effect).withThread index thread).threads far).rank =
        way.waiting (system.threads far).rank := by
    refine congr_withThread (f := fun thread => way.waiting thread.rank) ?_ far
    rw [Way.waiting, pending]
    rfl
  rw [passed, passed, histories, histories, waiting, lane]
  exact ⟨rfl, rfl⟩

/-- What is handed to a link is still dispatched, waiting, or on its way behind a step. -/
theorem Flowing.passed_step (flowing : system.Flowing plan links) (covers : plan.Covers links)
    (distinct : Function.Injective plan.ids) (steady : system.Steady plan links)
    {thread : Thread C} {effect : Effect n}
    (carries : Thread.Carries plan (system.view index) (system.threads index) thread effect)
    {way : Way} {near far : Fin n} (source : plan.ids near = (way.near links).rank)
    (goal : plan.ids far = (way.far links).rank) :
    ((system.apply index effect).withThread index thread).passed way links near far =
      way.sent links
        (((system.apply index effect).withThread index thread).threads near).history := by
  have conserved := flowing.conserved way near far source goal
  cases carries with
  | acted course history before behind taken =>
    exact flowing.passed_acted covers distinct steady course history before behind taken source goal
  | @posted parcel place known unsent rank taken history =>
    have origin : parcel.origin = plan.ids index :=
      steady.carried.unsent index parcel (by rw [unsent]; exact List.mem_cons_self)
    obtain ⟨passed, sent⟩ := @passed_of_same _ _ links system index thread _ way near far history
      (by rw [rank])
      (lane_post distinct (connects_conveys source goal) origin known unsent taken)
    rw [passed, sent, conserved]
  | @lost parcel rest unknown unsent rank taken history =>
    -- Every end of a link is placed on a rank that there is.
    have addressed := flowing.addressed.unsent index parcel
      (by rw [unsent]; exact List.mem_cons_self)
    obtain ⟨place, there⟩ := covers.placed_at addressed.goal.known parcel.delivery.arrival
    rw [Plan.index?, List.find?_eq_none] at unknown
    exact absurd (beq_iff_eq.mpr (there.trans addressed.goal.here))
      (unknown place (List.mem_finRange place))
  | @took parcel rest inbox unsent rank taken history =>
    have whole : system.channels index = parcel :: rest := inbox
    obtain ⟨passed, sent⟩ := @passed_of_same _ _ links system index thread .take way near far
      history (by rw [rank]) (by
        rw [lane_of_same (fun _ _ same => by cases same) unsent]
        rw [taken, channels_withThread, System.inbound, whole]
        simp)
    rw [passed, sent, conserved]
  | scheduled inbox unsent rank taken history =>
    exact flowing.passed_scheduled steady inbox unsent rank taken history source goal
  | kept quiet unsent rank taken history =>
    obtain ⟨passed, sent⟩ := @passed_of_same _ _ links system index thread effect way near far
      history (by rw [rank]) (by
        rw [lane_of_same quiet.2 unsent]
        rw [taken, channels_withThread]
        cases effect with
        | post place parcel => exact absurd rfl (quiet.2 place parcel)
        | take => exact absurd rfl quiet.1
        | _ => rfl)
    rw [passed, sent, conserved]

/-- A rank still hands messages to links in the order in which they are due behind a step. -/
theorem Flowing.sent_step (flowing : system.Flowing plan links) (covers : plan.Covers links)
    (distinct : Function.Injective plan.ids) (steady : system.Steady plan links)
    {thread : Thread C} {effect : Effect n}
    (carries : Thread.Carries plan (system.view index) (system.threads index) thread effect)
    (way : Way) :
    (way.sent links thread.history).Pairwise (fun x y => x.1 ≤ y.1) ∧
      ∀ entry ∈ way.sent links thread.history,
        entry.1 ≤ thread.rank.now.saturatingAdd (way.latency links) := by
  have former := flowing.ascending way index
  have bounded := flowing.sent way index
  cases carries with
  | acted course history before =>
    obtain ⟨flows, -⟩ := (flowing.flows covers distinct steady way index).course
      (flowing.addressed.routed steady before) course
    rw [history]
    exact ⟨flows.ascending, flows.sent⟩
  | posted _ _ rank _ history | lost _ _ rank _ history | took _ _ rank _ history
  | kept _ _ rank _ history =>
    rw [history, rank]
    exact ⟨former, bounded⟩
  | scheduled _ _ rank _ history =>
    rw [history, rank, Way.sent_append, Rank.receiveDeeds, (Rank.addDeeds_plain way links _ _).1,
      List.append_nil]
    exact ⟨former, bounded⟩

variable [Component C]

/-- Events, parcels and deeds are still placed behind a step. -/
theorem Addressed.step (addressed : system.Addressed plan links)
    (steady : system.Steady plan links) (stepped : system.step plan index = some next) :
    next.Addressed plan links := by
  obtain ⟨thread, effect, move, rfl⟩ := moves_of_step stepped
  obtain ⟨pending, unsent, deeds⟩ := addressed.thread_step steady move.carries
  refine ⟨forall_withThread (P := fun other thread => ∀ event ∈ thread.rank.pending.inOrder,
      event.payload.IsFor links (plan.ids other)) pending addressed.pending,
    forall_withThread (P := fun _ thread => ∀ parcel ∈ thread.unsent, parcel.Addressed links)
      unsent addressed.unsent,
    fun other parcel inside => ?_,
    forall_withThread (P := fun other thread =>
      ∀ deed ∈ thread.history, deed.Sited links (plan.ids other)) deeds addressed.deeds⟩
  rcases mem_inbound_step move.carries inside with old | ⟨own, -⟩
  · exact addressed.inbound other parcel old
  · exact addressed.unsent index parcel own

/-- What is handed to links is still dispatched in this order behind a step. -/
theorem Flowing.step (flowing : system.Flowing plan links) (covers : plan.Covers links)
    (distinct : Function.Injective plan.ids) (steady : system.Steady plan links)
    (stepped : system.step plan index = some next) : next.Flowing plan links := by
  have addressed := flowing.addressed.step steady stepped
  obtain ⟨thread, effect, move, rfl⟩ := moves_of_step stepped
  have sent := flowing.sent_step covers distinct steady move.carries
  exact ⟨addressed,
    fun way => forall_withThread (P := fun _ thread =>
      (way.sent links thread.history).Pairwise fun x y => x.1 ≤ y.1)
      (sent way).1 (flowing.ascending way),
    fun way => forall_withThread (P := fun _ thread => ∀ entry ∈ way.sent links thread.history,
      entry.1 ≤ thread.rank.now.saturatingAdd (way.latency links)) (sent way).2 (flowing.sent way),
    fun way near far source goal =>
      flowing.passed_step covers distinct steady move.carries source goal⟩

end System

end Rally
