import Rally.Proofs.Threads.MessageOrder
/-!
# Links keep what they promise

In every state of a run, on one rank or on several, what was dispatched at one end of a link is the
beginning of what was handed to it at the other end. Each message arrives behind the latency of the
link, at the port that the topology names there.
-/

namespace Rally

/-- How a message arrives that is handed to a link. -/
def Route.arrival (route : Route) (handing : Handing) : Arrival :=
  ⟨route.receiver, route.entering, handing.now.saturatingAdd route.latency, handing.message⟩

namespace Thread

variable {C : Type}

/-- The messages that a thread has handed to a link at a side. -/
def handings (link : LinkId) (side : Side) (thread : Thread C) : List Handing :=
  thread.history.filterMap (Deed.handing? link side)

/-- The messages from a side of a link that a thread has dispatched. -/
def arrivals (link : LinkId) (side : Side) (thread : Thread C) : List Arrival :=
  thread.history.filterMap (Deed.arrival? link side)

end Thread

namespace Way

/-- How an event is read by the component at the far end. -/
def arrival (way : Way) (links : Array Link) (entry : Instant × Delivery) : Arrival :=
  ⟨(way.far links).component, (way.far links).port, entry.1, entry.2.message⟩

/-- What was dispatched at the ends of links is read by the components there. -/
theorem filterMap_arrival? {way : Way} {links : Array Link} {id : RankId} {deeds : List Deed}
    (sited : ∀ deed ∈ deeds, deed.Sited links id) :
    deeds.filterMap (Deed.arrival? way.link way.side) =
      (way.arrived deeds).map (way.arrival links) := by
  induction deeds with
  | nil => rfl
  | cons deed rest ih =>
    have behind := ih fun other inside => sited other (List.mem_cons_of_mem deed inside)
    have here := sited deed List.mem_cons_self
    cases deed with
    | dispatched event arrival =>
      obtain ⟨-, place, now, message⟩ := here
      by_cases carried : way.bears event.entry = true
      · have same : event.payload.link = way.link ∧ event.payload.arrival = way.side.opposite := by
          simpa only [bears, carries, Scheduled.entry, Bool.and_eq_true, beq_iff_eq] using carried
        have first : Deed.arrival? way.link way.side (.dispatched event arrival) = some arrival :=
          if_pos same
        have read : way.arrival links event.entry = arrival := by
          rw [Way.arrival, far, ← same.1, ← same.2, place, Scheduled.entry, ← now, ← message]
        rw [List.filterMap_cons_some first, behind, arrived_dispatched, if_pos carried,
          List.map_cons, read]
      · have none : Deed.arrival? way.link way.side (.dispatched event arrival) = none := by
          refine if_neg fun same => carried ?_
          simpa only [bears, carries, Scheduled.entry, Bool.and_eq_true, beq_iff_eq] using same
        rw [List.filterMap_cons_none none, behind, arrived_dispatched, if_neg carried]
    | _ => exact behind

end Way

namespace System

variable {C : Type} {n : Nat} {plan : Plan n} {links : Array Link} {system : System C n}

/-- Whether the messages from one side of a link reach the other one as the topology says: they are
handed over by one thread and dispatched by one, in the same order and with none left out. -/
def Honours (registry : Registry C) (topology : Topology) (id : LinkId) (spec : LinkSpec)
    (side : Side) (system : System C n) : Prop :=
  ∃ route near far, topology.Routes registry id spec side route ∧
    (∀ index, ∀ handing ∈ (system.threads index).handings id side,
      index = near ∧ handing.component = route.sender ∧ handing.port = route.leaving) ∧
    (∀ index, ∀ arrival ∈ (system.threads index).arrivals id side, index = far) ∧
    (system.threads far).arrivals id side <+:
      ((system.threads near).handings id side).map route.arrival

/-- Whether messages go along the links of a topology, and as it says. -/
structure Faithful (registry : Registry C) (topology : Topology) (system : System C n) : Prop where
  /-- Nothing is handed to a link that the topology does not have, and nothing comes from it. -/
  known : ∀ index id side, topology.links[id]? = none →
    (system.threads index).handings id side = [] ∧ (system.threads index).arrivals id side = []
  /-- Both directions of each link are honoured. -/
  honoured : ∀ id spec side, topology.links[id]? = some spec →
    system.Honours registry topology id spec side

/-- Deeds are at links that there are. -/
theorem Addressed.known (addressed : system.Addressed plan links) {id : LinkId}
    (none : links[id]? = none) (index : Fin n) (side : Side) :
    (system.threads index).handings id side = [] ∧ (system.threads index).arrivals id side = [] := by
  rw [Array.getElem?_eq_none_iff] at none
  refine ⟨List.filterMap_eq_nil_iff.mpr fun deed inside => ?_,
    List.filterMap_eq_nil_iff.mpr fun deed inside => ?_⟩
  · have sited := addressed.deeds index deed inside
    cases deed with
    | handed link other handing =>
      refine if_neg ?_
      rintro ⟨rfl, -⟩
      exact absurd sited.1 (Nat.not_lt.mpr none)
    | _ => rfl
  · have sited := addressed.deeds index deed inside
    cases deed with
    | dispatched event arrival =>
      refine if_neg ?_
      rintro ⟨rfl, -⟩
      exact absurd sited.1 (Nat.not_lt.mpr none)
    | _ => rfl

/-- Where messages flow along the links of a topology, these keep what it promises. -/
theorem Flowing.honours (flowing : system.Flowing plan links) (covers : plan.Covers links)
    (distinct : Function.Injective plan.ids) {registry : Registry C} {topology : Topology}
    {id : LinkId} {spec : LinkSpec} {side : Side} {joined : Link} (there : links[id]? = some joined)
    (routes : topology.Routes registry id spec side
      ⟨(joined.endAt side).component, (joined.endAt side).port,
        (joined.endAt side.opposite).component, (joined.endAt side.opposite).port,
        joined.latency⟩) : system.Honours registry topology id spec side := by
  obtain ⟨known, -⟩ := Array.getElem?_eq_some_iff.mp there
  have link : links.getD id default = joined := by
    rw [Array.getD_eq_getD_getElem?, there, Option.getD_some]
  let way : Way := ⟨id, side⟩
  obtain ⟨near, source⟩ := covers.placed_at known side
  obtain ⟨far, goal⟩ := covers.placed_at known side.opposite
  refine ⟨_, near, far, routes, fun index handing inside => ?_, fun index arrival inside => ?_, ?_⟩
  · obtain ⟨deed, done, same⟩ := List.mem_filterMap.mp inside
    have sited := flowing.addressed.deeds index deed done
    cases deed with
    | handed other otherSide given =>
      rw [Deed.handing?] at same
      split at same
      · next equal =>
        cases same
        obtain ⟨rfl, rfl⟩ := equal
        have place := sited.2
        refine ⟨distinct ?_, ?_, ?_⟩
        · rw [source, place]
        · rw [← link, place]
        · rw [← link, place]
      · cases same
    | _ => cases same
  · rw [Thread.arrivals, @Way.filterMap_arrival? way _ _ _ (flowing.addressed.deeds index)] at inside
    by_contra away
    rw [way.arrived_of_ne (flowing.addressed.deeds index)] at inside
    · cases inside
    · intro same
      exact away (distinct (same.symm.trans goal.symm))
  · have whole := flowing.conserved way near far source goal
    rw [passed, List.append_assoc] at whole
    have beginning : way.arrived (system.threads far).history <+:
        way.sent links (system.threads near).history := ⟨_, whole⟩
    have read := beginning.map (way.arrival links)
    rw [← Way.filterMap_arrival? (flowing.addressed.deeds far), Way.sent, List.map_map] at read
    rw [← link]
    exact read

end System

namespace Simulation

variable {C : Type} {registry : Registry C} {options : Options} {topology : Topology}
  {clock : Instant} {journal : Journal} {simulation : Simulation C}

/-- Nothing flows before the threads of a simulation start. -/
theorem flowing_launch
    (built : (build registry options topology clock journal).2 = .ok simulation)
    (filter : Filter) (links : Array Link) :
    (simulation.launch filter).Flowing simulation.plan links := by
  have waiting (index : Fin simulation.ranks.length) :
      ((simulation.launch filter).threads index).rank.pending.inOrder = [] := by
    have fresh : Fresh (simulation.ranks.get index) := fresh_of_build built (List.get_mem _ _)
    have pending : ((simulation.launch filter).threads index).rank.pending = {} := fresh.pending
    rw [pending, EventSet.inOrder_empty]
  have unsent (index : Fin simulation.ranks.length) :
      ((simulation.launch filter).threads index).unsent = [] :=
    Thread.unsent_launch (fresh_of_build built (List.get_mem _ _)).outgoing
  refine ⟨⟨fun index event inside => ?_, fun index parcel inside => ?_,
    fun index parcel inside => (List.not_mem_nil inside).elim,
    fun index deed inside => (List.not_mem_nil inside).elim⟩, fun way index => .nil,
    fun way index entry inside => (List.not_mem_nil inside).elim, fun way near far _ _ => ?_⟩
  · rw [waiting] at inside
    cases inside
  · rw [unsent] at inside
    cases inside
  · have inbound : (simulation.launch filter).inbound far = [] := rfl
    rw [System.passed, System.lane, inbound, unsent, Way.waiting, waiting]
    rfl

variable [Component C]

/-- In every run of a simulation that was built, on one rank or on several, messages flow along the
links of its topology. -/
theorem flowing_of_exec
    (built : (build registry options topology clock journal).2 = .ok simulation)
    {assembly : Assembly C} (realizes : simulation.Realizes registry topology assembly)
    {filter : Filter} {schedule : List (Fin simulation.ranks.length)}
    {system : System C simulation.ranks.length}
    (reached : (simulation.launch filter).exec simulation.plan schedule = some system) :
    system.Flowing simulation.plan assembly.links := by
  have covers := realizes.covers
  have distinct := ids_injective built
  have flowing := flowing_launch built filter assembly.links
  cases alone : simulation.plan.alone with
  | true =>
    have step : ∀ (former next : System C simulation.ranks.length) index,
        former.Solo simulation.plan assembly.links ∧
        former.Carried simulation.plan ∧ former.Flowing simulation.plan assembly.links →
        former.step simulation.plan index = some next →
          next.Solo simulation.plan assembly.links ∧ next.Carried simulation.plan ∧
            next.Flowing simulation.plan assembly.links := by
      rintro former next index ⟨solo, carried, flowing⟩ stepped
      exact ⟨solo.step covers alone stepped, carried.step distinct stepped,
        flowing.step covers distinct (solo.steady carried) stepped⟩
    exact (System.exec_preserves step reached
      ⟨solo_launch built filter realizes, carried_launch built filter, flowing⟩).2.2
  | false =>
    have several : 2 ≤ simulation.ranks.length := by
      rw [Plan.alone, decide_eq_false_iff_not] at alone
      omega
    have step : ∀ (former next : System C simulation.ranks.length) index,
        former.Timely simulation.plan assembly.links ∧
        former.Flowing simulation.plan assembly.links →
        former.step simulation.plan index = some next →
          next.Timely simulation.plan assembly.links ∧
            next.Flowing simulation.plan assembly.links := by
      rintro former next index ⟨timely, flowing⟩ stepped
      exact ⟨timely.step covers alone distinct stepped,
        flowing.step covers distinct timely.steady stepped⟩
    exact (System.exec_preserves step reached
      ⟨timely_launch built several filter realizes, flowing⟩).2

/-- In every run of a simulation that was built, on one rank or on several, what was dispatched at
one end of a link is the beginning of what was handed to it at the other end, behind its latency. -/
theorem faithful_of_exec
    (built : (build registry options topology clock journal).2 = .ok simulation)
    {filter : Filter} {schedule : List (Fin simulation.ranks.length)}
    {system : System C simulation.ranks.length}
    (reached : (simulation.launch filter).exec simulation.plan schedule = some system) :
    system.Faithful registry topology := by
  obtain ⟨assembly, realizes⟩ := realizes_of_build built
  have flowing := flowing_of_exec built realizes reached
  refine ⟨fun index id side none => ?_, fun id spec side there => ?_⟩
  · refine flowing.addressed.known ?_ index side
    rw [← Array.getElem?_toList, List.getElem?_eq_none_iff, ← realizes.follows.joined.length_eq]
    exact List.getElem?_eq_none_iff.mp none
  · obtain ⟨joined, found, routes⟩ := realizes.follows.routes there side
    exact flowing.honours realizes.covers (ids_injective built) found routes

/-- The links in a whole run of two players on a rank each. -/
theorem faithful_of_exec_relayChain :
    ∃ (simulation : Simulation Player) (schedule : List (Fin simulation.ranks.length))
      (system : System Player simulation.ranks.length),
      (build (Registry.builtin id) {} (.relayChain [(.initiator, 0), (.responder, 1)] 1)
        Instant.zero ⟨Filter.off, #[]⟩).2 = .ok simulation ∧
      (simulation.launch Filter.off).exec simulation.plan schedule = some system ∧
      system.Complete ∧ system.Faithful (Registry.builtin id)
        (.relayChain [(.initiator, 0), (.responder, 1)] 1) := by
  obtain ⟨simulation, built, two, runs⟩ := built_relayChain
  obtain ⟨system, count, ⟨schedule, -, reached⟩, ends⟩ := reaches_ends built two.ge runs
  exact ⟨simulation, schedule, system, built, reached, ends.complete,
    faithful_of_exec built reached⟩

end Simulation

end Rally
