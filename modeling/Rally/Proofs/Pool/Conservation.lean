import Rally.Player
import Rally.Proofs.Pool.BeforeFinish
import Rally.Proofs.Pool.ReportSums
/-!
# Nothing is lost or made up

In every state of a run, on one rank or on several, what was sent along a direction of a link and not
delivered is held somewhere: in the set of future events of a rank, among what a rank has not posted, or
in a channel. At a good end nothing is held but future events, so the counters of a report balance: what
is in flight are the events left on the ranks, and what was delivered are the events dispatched.
-/

namespace Rally

variable {links : Array Link}

/-- A delivery goes the way that leads over its link to the side where it arrives. -/
theorem Way.carries_iff {way : Way} {delivery : Delivery} :
    way.carries delivery = true ↔
      delivery.link = way.link ∧ delivery.arrival = way.side.opposite := by
  rw [carries, Bool.and_eq_true, beq_iff_eq, beq_iff_eq]

/-- Each of some messages goes one way. -/
theorem sum_bears {entries : List (Instant × Delivery)} {count : Nat}
    (known : ∀ entry ∈ entries, entry.2.link < count) :
    ∑ id ∈ Finset.range count,
      (entries.countP (Way.bears ⟨id, .a⟩) + entries.countP (Way.bears ⟨id, .b⟩)) =
        entries.length := by
  induction entries with
  | nil => simp
  | cons entry rest ih =>
    have behind := ih fun other inside => known other (List.mem_cons_of_mem _ inside)
    have here := known entry List.mem_cons_self
    have each (id : LinkId) :
        (entry :: rest).countP (Way.bears ⟨id, .a⟩) + (entry :: rest).countP (Way.bears ⟨id, .b⟩) =
          (rest.countP (Way.bears ⟨id, .a⟩) + rest.countP (Way.bears ⟨id, .b⟩)) +
            if entry.2.link = id then 1 else 0 := by
      simp only [List.countP_cons, Way.bears_iff, Way.mk.injEq]
      by_cases same : entry.2.link = id
      · cases arrival : entry.2.arrival <;> simp [same, Side.opposite] <;> omega
      · have differ : ¬ id = entry.2.link := fun equal => same equal.symm
        simp [same, differ]
    simp only [each, Finset.sum_add_distrib, Finset.sum_ite_eq, Finset.mem_range, if_pos here] at *
    rw [List.length_cons, behind]

/-- Each of the messages of several ranks goes one way. -/
theorem sum_sum_bears {n : Nat} {entries : Fin n → List (Instant × Delivery)} {count : Nat}
    (known : ∀ index, ∀ entry ∈ entries index, entry.2.link < count) :
    ∑ id ∈ Finset.range count, (∑ index, (entries index).countP (Way.bears ⟨id, .a⟩) +
      ∑ index, (entries index).countP (Way.bears ⟨id, .b⟩)) = ∑ index, (entries index).length := by
  simp only [← Finset.sum_add_distrib]
  rw [Finset.sum_comm]
  exact Finset.sum_congr rfl fun index _ => sum_bears (known index)

/-- The traffic of all links in all. -/
theorem sum_tallied {flow : Way → Flow} (number : Traffic → Nat) (count : LinkId → Nat)
    (same : ∀ id name, number ⟨name, flow ⟨id, .a⟩, flow ⟨id, .b⟩⟩ = count id) :
    ((tallied links flow).map number).sum = ∑ id ∈ Finset.range links.size, count id := by
  have listed : tallied links flow = List.ofFn fun place : Fin links.size =>
      ⟨links[place].name, flow ⟨place, .a⟩, flow ⟨place, .b⟩⟩ := by
    refine List.ext_getElem? fun id => ?_
    rw [getElem?_tallied, List.getElem?_ofFn]
    split
    · next known => rw [Array.getElem?_eq_getElem known]; rfl
    · next beyond => rw [Array.getElem?_eq_none (not_lt.mp beyond)]; rfl
  rw [listed, List.map_ofFn, List.sum_ofFn, Finset.sum_range]
  exact Finset.sum_congr rfl fun place _ => same place _

variable {C : Type} {n : Nat} {plan : Plan n}

/-- What a rank counted along a way is what its history tells. -/
theorem Rank.Counted.leaving {rank : Rank C} {history : List Deed}
    (counted : rank.Counted links history) {way : Way} (known : way.link < links.size) :
    (rank.traffic.getD way.link default).leaving way.side =
      flowOf (postedOf links history) (takenOf history) way := by
  obtain ⟨link, side⟩ := way
  have found := congrArg (fun traffic : List Traffic => traffic[link]?) counted
  simp only [getElem?_tallied, Array.getElem?_toList, Array.getElem?_eq_getElem known] at found
  rw [Array.getD_eq_getD_getElem?, found]
  cases side <;> rfl

namespace System

/-- What all ranks counted along a way. -/
def flow (way : Way) (system : System C n) : Flow where
  sent := ∑ index,
    (((system.threads index).rank.traffic.getD way.link default).leaving way.side).sent
  delivered := ∑ index,
    (((system.threads index).rank.traffic.getD way.link default).leaving way.side).delivered

/-- The events of a way that wait on the rank of a thread. -/
def waitingAt (way : Way) (system : System C n) (index : Fin n) : Nat :=
  (system.threads index).rank.pending.inOrder.countP fun event => way.carries event.payload

/-- The events of a way on which a rank sits: those that wait on it, those that its thread has not
posted, and those in the channel to it or taken out of there. -/
def heldAt (way : Way) (system : System C n) (index : Fin n) : Nat :=
  system.waitingAt way index +
    ((system.threads index).unsent.countP fun parcel => way.carries parcel.delivery) +
    (system.inbound index).countP fun parcel => way.carries parcel.delivery

/-- Whether what was sent along a way and not delivered is held on some rank. -/
structure Conserves (way : Way) (system : System C n) : Prop where
  /-- No more is delivered than was sent. -/
  delivered_le : (system.flow way).delivered ≤ (system.flow way).sent
  /-- The rest is held. -/
  inFlight : (system.flow way).inFlight = ∑ index, system.heldAt way index

variable [Component C] {system : System C n} {first : Fin n → Rank C}
  (kept : system.Kept plan links first)
include kept

/-- What all ranks counted along a way is what their histories tell. -/
theorem Kept.flow_eq {way : Way} (known : way.link < links.size) :
    system.flow way = ⟨∑ index, (way.sent links (system.threads index).history).length,
      ∑ index, (way.arrived (system.threads index).history).length⟩ := by
  simp only [flow, (kept.counted _).leaving known, flowOf, List.countP_eq_length_filter,
    Way.sent_eq_filter, Way.arrived_eq_filter]

variable (distinct : Function.Injective plan.ids) {way : Way} {near far : Fin n}
  (source : plan.ids near = (way.near links).rank) (goal : plan.ids far = (way.far links).rank)
include distinct source goal

/-- What was sent along a way is delivered, waits, or is on its way. -/
theorem Kept.sent_eq (known : way.link < links.size) :
    (system.flow way).sent = (system.flow way).delivered + ∑ index, system.waitingAt way index +
      (system.lane (way.conveys links) near far).length := by
  have addressed := kept.flowing.addressed
  have sent : (system.flow way).sent = (way.sent links (system.threads near).history).length := by
    rw [kept.flow_eq known]
    refine Fintype.sum_eq_single near fun other differ => List.length_eq_zero_iff.mpr ?_
    exact Way.sent_of_ne (addressed.deeds other) fun here => differ (distinct (source.trans here).symm)
  have delivered : (system.flow way).delivered =
      (way.arrived (system.threads far).history).length := by
    rw [kept.flow_eq known]
    refine Fintype.sum_eq_single far fun other differ => List.length_eq_zero_iff.mpr ?_
    exact Way.arrived_of_ne (addressed.deeds other)
      fun here => differ (distinct (goal.trans here).symm)
  have waiting : ∑ index, system.waitingAt way index =
      (way.waiting (system.threads far).rank).length := by
    refine (Fintype.sum_eq_single far fun other differ => ?_).trans ?_
    · refine List.countP_eq_zero.mpr fun event inside goes => differ (distinct ?_)
      obtain ⟨-, here⟩ := addressed.pending other event inside
      obtain ⟨link, arrival⟩ := Way.carries_iff.mp goes
      rw [← here, link, arrival, goal]
      rfl
    · rw [waitingAt, Way.waiting, List.filter_map, List.length_map, List.countP_eq_length_filter]
      rfl
  have whole := congrArg List.length (kept.flowing.conserved way near far source goal)
  rw [passed, List.length_append, List.length_append, List.length_map] at whole
  rw [sent, delivered, waiting, whole]

/-- What is on its way is in the channel, or taken out of there, or not posted. -/
theorem Kept.length_lane :
    (system.lane (way.conveys links) near far).length =
      ∑ index, ((system.threads index).unsent.countP fun parcel => way.carries parcel.delivery) +
        ∑ index, (system.inbound index).countP fun parcel => way.carries parcel.delivery := by
  have addressed := kept.flowing.addressed
  have unsent : ∑ index, (system.threads index).unsent.countP
        (fun parcel => way.carries parcel.delivery) =
      (system.threads near).unsent.countP (way.conveys links) := by
    refine (Fintype.sum_eq_single near fun other differ => ?_).trans ?_
    · refine List.countP_eq_zero.mpr fun parcel inside goes => differ (distinct ?_)
      obtain ⟨link, arrival⟩ := Way.carries_iff.mp goes
      rw [← kept.steady.carried.unsent other parcel inside,
        ← (addressed.unsent other parcel inside).source, link, arrival, source,
        Side.opposite_opposite]
      rfl
    · exact List.countP_congr fun parcel inside => by
        rw [Way.conveys_eq (addressed.unsent near parcel inside)]
  have inbound : ∑ index, (system.inbound index).countP
        (fun parcel => way.carries parcel.delivery) =
      (system.inbound far).countP (way.conveys links) := by
    refine (Fintype.sum_eq_single far fun other differ => ?_).trans ?_
    · refine List.countP_eq_zero.mpr fun parcel inside goes => differ (distinct ?_)
      obtain ⟨link, arrival⟩ := Way.carries_iff.mp goes
      rw [← (kept.steady.carried.inbound other parcel inside).1,
        ← (addressed.inbound other parcel inside).goal.here, link, arrival, goal]
      rfl
    · exact List.countP_congr fun parcel inside => by
        rw [Way.conveys_eq (addressed.inbound far parcel inside)]
  rw [lane, List.filter_append, List.length_append, ← List.countP_eq_length_filter,
    ← List.countP_eq_length_filter, unsent, inbound, Nat.add_comm]

omit source goal in
/-- What was sent along a way and not delivered is held on some rank. -/
theorem Kept.conserves (covers : plan.Covers links) (known : way.link < links.size) :
    system.Conserves way := by
  obtain ⟨near, source⟩ := covers.placed_at known way.side
  obtain ⟨far, goal⟩ := covers.placed_at known way.side.opposite
  have sent := kept.sent_eq distinct source goal known
  rw [kept.length_lane distinct source goal] at sent
  have held : ∑ index, system.heldAt way index =
      ∑ index, system.waitingAt way index +
        ∑ index, (system.threads index).unsent.countP (fun parcel => way.carries parcel.delivery) +
        ∑ index, (system.inbound index).countP (fun parcel => way.carries parcel.delivery) := by
    rw [← Finset.sum_add_distrib, ← Finset.sum_add_distrib]
    rfl
  refine ⟨by omega, ?_⟩
  rw [Flow.inFlight, held]
  omega

end System

/-- How the counters of a report fit the ranks that it is about. -/
structure Report.Balances (ranks : List (Rank C)) (report : Report C) : Prop where
  /-- What is in flight along a direction of a link are the events left for its end. -/
  flights : ∀ (way : Way) traffic, report.links[way.link]? = some traffic →
    (traffic.leaving way.side).delivered ≤ (traffic.leaving way.side).sent ∧
      (traffic.leaving way.side).inFlight =
        (ranks.map fun rank => rank.pending.inOrder.countP fun event => way.carries event.payload).sum
  /-- What was sent and not delivered is left on the ranks. -/
  sent : report.messagesSent = report.messagesDelivered + (report.ranks.map RankReport.pending).sum
  /-- What was delivered are the events that were dispatched. -/
  delivered : report.messagesDelivered = report.events
  /-- These are the events of all ranks. -/
  events : report.events = (report.ranks.map RankReport.events).sum

namespace Simulation

variable [Component C] {registry : Registry C} {options : Options} {topology : Topology}
  {clock moment : Instant} {journal : Journal} {simulation : Simulation C}
  {assembly : Assembly C} {filter : Filter}

section Closes

variable {reason : Termination} {system last : System C simulation.ranks.length}
  (built : (build registry options topology clock journal).2 = .ok simulation)
  (realizes : simulation.Realizes registry topology assembly)
  (closes : simulation.Closes filter assembly.links reason system last)
include built realizes closes

/-- The links of a report carried what the ranks counted before the finish hooks. -/
theorem Closes.links_eq :
    (Report.ofRanks reason (List.ofFn fun index => (last.threads index).rank)).links =
      tallied assembly.links system.flow := by
  obtain ⟨schedule, reached⟩ := closes.reached
  have kept := kept_of_exec built realizes reached
  have counted (index : Fin simulation.ranks.length) : (last.threads index).rank.Counted
      assembly.links (system.threads index).history := by
    rw [closes.finishes index]
    exact kept.counted index
  refine (Pool.traffic_ofRanks (ranks_of_build built) counted).trans (List.ext_getElem? fun id => ?_)
  rw [getElem?_tallied, getElem?_tallied]
  by_cases known : id < assembly.links.size
  · have counts (way : Way) (here : way.link = id) : flowOf
        ((List.finRange simulation.ranks.length).flatMap fun index =>
          postedOf assembly.links (system.threads index).history)
        ((List.finRange simulation.ranks.length).flatMap fun index =>
          takenOf (system.threads index).history) way = system.flow way := by
      rw [kept.flow_eq (here ▸ known), flowOf, List.countP_flatMap, List.countP_flatMap,
        ← List.ofFn_eq_map, ← List.ofFn_eq_map, List.sum_ofFn, List.sum_ofFn]
      simp only [Function.comp_apply, List.countP_eq_length_filter, Way.sent_eq_filter,
        Way.arrived_eq_filter]
    rw [counts ⟨id, .a⟩ rfl, counts ⟨id, .b⟩ rfl]
  · rw [Array.getElem?_eq_none (not_lt.mp known)]
    rfl

/-- Before the finish hooks, what was sent along a way is delivered or waits on some rank. -/
theorem Closes.sent_eq (way : Way) (known : way.link < assembly.links.size) :
    (system.flow way).sent = (system.flow way).delivered + ∑ index, system.waitingAt way index := by
  obtain ⟨schedule, reached⟩ := closes.reached
  have kept := kept_of_exec built realizes reached
  obtain ⟨near, source⟩ := realizes.covers.placed_at known way.side
  obtain ⟨far, goal⟩ := realizes.covers.placed_at known way.side.opposite
  have sent := kept.sent_eq (ids_injective built) source goal known
  rwa [closes.rested.lanes way near far source goal] at sent

/-- As many messages as the links handed over were dispatched. -/
theorem Closes.sum_delivered : ((tallied assembly.links system.flow).map Traffic.delivered).sum =
    ∑ index, (takenOf (system.threads index).history).length := by
  obtain ⟨schedule, reached⟩ := closes.reached
  have kept := kept_of_exec built realizes reached
  rw [sum_tallied Traffic.delivered (fun id => (system.flow ⟨id, .a⟩).delivered +
    (system.flow ⟨id, .b⟩).delivered) fun _ _ => rfl,
    ← sum_sum_bears fun index entry inside => (kept.flowing.addressed.taken inside).1]
  refine Finset.sum_congr rfl fun id inside => ?_
  have known := Finset.mem_range.mp inside
  rw [kept.flow_eq known, kept.flow_eq known]
  simp only [Way.arrived_eq_filter, List.countP_eq_length_filter]

/-- Messages that were sent were handed over, or wait. -/
theorem Closes.sum_sent : ((tallied assembly.links system.flow).map Traffic.sent).sum =
    ((tallied assembly.links system.flow).map Traffic.delivered).sum +
      ∑ index, (system.threads index).rank.pending.inOrder.length := by
  obtain ⟨schedule, reached⟩ := closes.reached
  have kept := kept_of_exec built realizes reached
  have held (index : Fin simulation.ranks.length) : ∀ entry ∈
      (system.threads index).rank.pending.inOrder.map Scheduled.entry,
        entry.2.link < assembly.links.size := by
    intro entry inside
    obtain ⟨event, there, rfl⟩ := List.mem_map.mp inside
    exact (kept.flowing.addressed.pending index event there).known
  have waits : ∑ index, (system.threads index).rank.pending.inOrder.length =
      ∑ index, ((system.threads index).rank.pending.inOrder.map Scheduled.entry).length :=
    Finset.sum_congr rfl fun index _ => (List.length_map _).symm
  rw [waits, sum_tallied Traffic.sent (fun id => (system.flow ⟨id, .a⟩).sent +
    (system.flow ⟨id, .b⟩).sent) fun _ _ => rfl, sum_tallied Traffic.delivered (fun id =>
      (system.flow ⟨id, .a⟩).delivered + (system.flow ⟨id, .b⟩).delivered) fun _ _ => rfl,
    ← sum_sum_bears held, ← Finset.sum_add_distrib]
  refine Finset.sum_congr rfl fun id inside => ?_
  have known := Finset.mem_range.mp inside
  rw [closes.sent_eq built realizes ⟨id, .a⟩ known, closes.sent_eq built realizes ⟨id, .b⟩ known]
  simp only [System.waitingAt, List.countP_map]
  exact add_add_add_comm _ _ _ _

/-- The counters of a report fit its ranks. -/
theorem Closes.balances :
    (Report.ofRanks reason (List.ofFn fun index => (last.threads index).rank)).Balances
      (List.ofFn fun index => (last.threads index).rank) := by
  have links := closes.links_eq built realizes
  have left (index : Fin simulation.ranks.length) :
      (last.threads index).rank.pending = (system.threads index).rank.pending ∧
        (last.threads index).rank.dispatched = (system.threads index).rank.dispatched := by
    rw [closes.finishes index]
    exact ⟨rfl, rfl⟩
  have reports : ∀ index, (system.threads index).rank.Reports (system.threads index).history := by
    obtain ⟨schedule, reached⟩ := closes.reached
    exact reports_of_exec built realizes reached
  refine ⟨fun way traffic there => ?_, ?_, ?_, List.sum_eq_foldl_nat.symm⟩
  · rw [links, getElem?_tallied, Option.map_eq_some_iff] at there
    obtain ⟨link, found, rfl⟩ := there
    obtain ⟨known, -⟩ := Array.getElem?_eq_some_iff.mp found
    have sent := closes.sent_eq built realizes way known
    have leaving : Traffic.leaving ⟨link.name, system.flow ⟨way.link, .a⟩,
        system.flow ⟨way.link, .b⟩⟩ way.side = system.flow way := by
      obtain ⟨id, side⟩ := way
      cases side <;> rfl
    rw [leaving, List.map_ofFn, List.sum_ofFn, Flow.inFlight]
    simp only [Function.comp_apply, left]
    have waits : ∑ index, system.waitingAt way index = ∑ index,
        (system.threads index).rank.pending.inOrder.countP
          (fun event => way.carries event.payload) := rfl
    omega
  · rw [Report.messagesSent_eq_sum, Report.messagesDelivered_eq_sum, links,
      closes.sum_sent built realizes, Report.ofRanks, List.map_ofFn, List.map_ofFn, List.sum_ofFn]
    simp only [Function.comp_apply, RankReport.ofRank, left, EventSet.size_eq_length]
  · rw [Report.messagesDelivered_eq_sum, links, closes.sum_delivered built realizes,
      Report.events_ofRanks, List.map_ofFn, List.sum_ofFn]
    simp only [Function.comp_apply, left, (reports _).count]

end Closes

/-- Nothing is lost or made up in any state of a run, on one rank or on several; and the counters of its
report fit the ranks at its end. -/
theorem conserved_of_build
    (built : (build registry options topology clock journal).2 = .ok simulation) :
    (∀ schedule system, (simulation.launch filter).exec simulation.plan schedule = some system →
      ∀ way : Way, way.link < topology.links.length → system.Conserves way) ∧
    ∀ fuel moment result report, simulation.run fuel filter moment = some result →
      result.outcome = .ok report →
        ∃ schedule last, (simulation.launch filter).exec simulation.plan schedule = some last ∧
          last.verdict? = some (.ok report.reason) ∧
          report = Report.ofRanks report.reason
            (List.ofFn fun index => (last.threads index).rank) ∧
          report.links.length = topology.links.length ∧
          report.Balances (List.ofFn fun index => (last.threads index).rank) := by
  obtain ⟨assembly, realizes⟩ := realizes_of_build built
  have size : topology.links.length = assembly.links.size := realizes.follows.joined.length_eq
  refine ⟨fun schedule system reached way known => ?_, fun fuel moment result report runs ok => ?_⟩
  · exact (kept_of_exec built realizes reached).conserves (ids_injective built) realizes.covers
      (size ▸ known)
  · obtain ⟨system, last, closes, same⟩ := closes_of_run built realizes runs ok
    obtain ⟨schedule, ended⟩ := closes.ended
    refine ⟨schedule, last, ended, closes.verdict, same, ?_, ?_⟩
    · rw [same, closes.links_eq built realizes, tallied, List.length_mapIdx, size,
        Array.length_toList]
    · rw [same]
      exact closes.balances built realizes

/-- Two players on a rank each that is limited to one event: one message is left on its way. -/
theorem conserved_of_build_relayChain :
    ∃ (simulation : Simulation Player) (report : Report Player) (ranks : List (Rank Player)),
      (build (Registry.builtin id) { limit := .events 1 }
        (.relayChain [(.initiator, 0), (.responder, 1)] 2) Instant.zero ⟨Filter.off, #[]⟩).2 =
          .ok simulation ∧
      ((simulation.run 8 Filter.off Instant.zero).bind fun result => result.outcome.toOption) =
        some report ∧
      report.messagesSent = 3 ∧ report.messagesDelivered = 2 ∧
      report = Report.ofRanks report.reason ranks ∧ report.Balances ranks := by
  obtain ⟨simulation, result, report, built, runs, ok, seen⟩ := @exists_run _ _ (Registry.builtin id)
    { limit := .events 1 } (.relayChain [(.initiator, 0), (.responder, 1)] 2) Instant.zero
    Instant.zero ⟨Filter.off, #[]⟩ Filter.off 8 _
    (fun _ report => (report.messagesSent, report.messagesDelivered)) (3, 2) (by decide +kernel)
  obtain ⟨sent, delivered⟩ := Prod.mk.inj seen
  obtain ⟨-, balanced⟩ := @conserved_of_build _ _ _ _ _ _ _ _ Filter.off built
  obtain ⟨-, last, -, -, same, -, balances⟩ := balanced 8 Instant.zero result report runs ok
  exact ⟨simulation, report, _, built, by rw [runs, Option.bind_some, ok]; rfl, sent, delivered,
    same, balances⟩

end Simulation

end Rally
