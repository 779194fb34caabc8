import Rally.Proofs.Pool.RankAlone
/-!
# One report about ranks that nothing joins

A report tells of each rank, each component and each link. Where no link leads to another rank, each of these
is told by the report about one rank alone, and the report about all ranks only puts these reports together.
-/

namespace Rally

/-- Traffic on links of one name is the same where its counters are. -/
theorem Traffic.eq_of_counters {traffic other : Traffic} (name : traffic.name = other.name)
    (same : ∀ side, (traffic.leaving side).sent = (other.leaving side).sent ∧
      (traffic.leaving side).delivered = (other.leaving side).delivered) : traffic = other := by
  obtain ⟨called, ⟨sent, delivered⟩, ⟨back, received⟩⟩ := traffic
  obtain ⟨named, ⟨given, taken⟩, ⟨returned, got⟩⟩ := other
  obtain ⟨rfl, rfl⟩ := same .a
  obtain ⟨rfl, rfl⟩ := same .b
  obtain rfl : called = named := name
  rfl

variable {C : Type}

/-- How the report about several ranks puts the reports about each of them alone together. -/
structure Report.Joins (topology : Topology) (ids : List RankId) (reports : RankId → Report C)
    (report : Report C) : Prop where
  /-- It tells of each rank what the report about this rank alone tells, in ascending order. -/
  ranks : report.ranks = ids.flatMap fun id => (reports id).ranks
  /-- The report about a rank has those components that are placed there, as they are and in the same
  order. -/
  components : ∀ id ∈ ids,
    (reports id).components = report.components.filter fun named => topology.hosts id named.1
  /-- So it has those links that are on the rank, with the same counters. -/
  links : ∀ id ∈ ids,
    (reports id).links = report.links.filter fun traffic => topology.carries id traffic.name

/-- A report tells of a rank among others what it tells of the rank alone. -/
theorem Rank.Corresponds.report {numbers : Numbering} {rank other : Rank C}
    (corresponds : rank.Corresponds numbers other) : RankReport.ofRank rank = RankReport.ofRank other := by
  simp only [RankReport.ofRank, corresponds.id, corresponds.dispatched, corresponds.pending.size,
    corresponds.lastTime, corresponds.tally]

namespace Topology

variable {topology : Topology} {ranks : List (Rank C)} {alone : RankId → Rank C}
  {reports : RankId → Report C} {report : Report C} {id : RankId}

/-- The report about all ranks has the components of a rank in their old positions. -/
theorem Merges.positions_components
    (distinct : topology.components.Pairwise fun first second => first.name ≠ second.name)
    (merges : topology.Merges ranks report) :
    positions (fun named => topology.hosts id named.1) report.components =
      (topology.numbers id).components := by
  refine positions_congr ?_
  have names := congrArg (List.map (topology.hosts id)) merges.names
  rw [List.map_map, List.map_map] at names
  exact names.trans (List.map_congr_left fun spec inside => hosts_name distinct inside)

/-- So it has the links. -/
theorem Merges.positions_links
    (distinct : topology.links.Pairwise fun first second => first.name ≠ second.name)
    (merges : topology.Merges ranks report) :
    positions (fun traffic => topology.carries id traffic.name) report.links = (topology.numbers id).links := by
  refine positions_congr ?_
  have names := congrArg (List.map (topology.carries id)) merges.links
  rw [List.map_map, List.map_map] at names
  exact names.trans (List.map_congr_left fun link inside => carries_name distinct inside)

/-- What is counted on a link of a rank is counted there alone. -/
theorem counted_eq (distinct : topology.components.Pairwise fun first second => first.name ≠ second.name)
    (apart : (ranks.map Rank.id).Nodup)
    (corresponds : ∀ rank ∈ ranks, rank.Corresponds (topology.numbers rank.id) (alone rank.id))
    {rank : Rank C} (inside : rank ∈ ranks) {number position : LinkId}
    (there : (topology.numbers rank.id).links[number]? = some position) (side : Side) {counter : Flow → Nat}
    (zero : counter {} = 0) :
    counted ranks position side counter = counted [alone rank.id] number side counter := by
  have same : rank.traffic.getD position default = (alone rank.id).traffic.getD number default := by
    rw [Array.getD_eq_getD_getElem?, Array.getD_eq_getD_getElem?,
      (corresponds rank inside).traffic number position there]
  classical
  rw [counted, List.sum_map_eq_nsmul_single rank, List.count_eq_one_of_mem (apart.of_map _) inside, same]
  · simp only [counted, List.map_singleton, List.sum_singleton, one_nsmul]
  · intro other differ among
    have foreign : position ∉ (topology.numbers other.id).links := by
      intro kept
      obtain ⟨link, here, own⟩ := mem_positions.mp (List.mem_of_getElem? there)
      obtain ⟨twin, found, also⟩ := mem_positions.mp kept
      obtain rfl := Option.some.inj (here.symm.trans found)
      exact differ (List.inj_on_of_nodup_map apart among inside (eq_of_keeps distinct also own))
    rw [Array.getD_eq_getD_getElem?]
    cases found : other.traffic[position]? with
    | none => cases side <;> exact zero
    | some traffic =>
      rw [Option.getD_some, (corresponds other among).unused position traffic foreign found]
      cases side <;> exact zero

/-- No two ranks in a report have one number. -/
theorem Merges.nodup_ids (merges : topology.Merges ranks report) : (ranks.map Rank.id).Nodup := by
  have ascending := merges.ascending
  rw [merges.each, List.pairwise_map] at ascending
  exact List.pairwise_map.mpr (ascending.imp Nat.ne_of_lt)

/-- A link that is defined in some place is reported there, under its name. -/
theorem Merges.exists_traffic (merges : topology.Merges ranks report) {position : LinkId}
    {link : LinkSpec} (known : topology.links[position]? = some link) :
    ∃ traffic, report.links[position]? = some traffic ∧ traffic.name = link.name := by
  have here := congrArg (fun names => names[position]?) merges.links
  rw [List.getElem?_map, List.getElem?_map, known] at here
  exact Option.map_eq_some_iff.mp here

/-- Where a rank corresponds to what it is alone, the report about it has those of all components that are
placed there. -/
theorem Merges.components_eq_filter
    (components : topology.components.Pairwise fun first second => first.name ≠ second.name)
    (merges : topology.Merges ranks report) {rank : Rank C} (among : rank ∈ ranks)
    (separate : (topology.only rank.id).Merges [alone rank.id] (reports rank.id))
    (corresponds : rank.Corresponds (topology.numbers rank.id) (alone rank.id)) :
    (reports rank.id).components =
      report.components.filter fun named => topology.hosts rank.id named.1 := by
  have numbered := @Merges.positions_components _ _ _ _ rank.id components merges
  refine eq_filter_of_positions ?_ fun number position there => ?_
  · have names := congrArg List.length separate.names
    rw [List.length_map, List.length_map] at names
    rw [numbered, names]
    exact length_positions.symm
  · rw [numbered] at there
    obtain ⟨spec, found, kept, here⟩ := getElem?_of_positions there
    obtain ⟨other, member, own, slot, held, told⟩ := merges.states position spec found
    obtain rfl := List.inj_on_of_nodup_map merges.nodup_ids member among
      (own.trans (beq_iff_eq.mp here))
    obtain ⟨twin, single, -, also, owned, tells⟩ := separate.states number spec kept
    obtain rfl := List.mem_singleton.mp single
    rcases corresponds.slot?_cases there with ⟨none, -⟩ | ⟨first, second, one, two, same⟩
    · cases held.symm.trans none
    · obtain rfl := Option.some.inj (held.symm.trans one)
      obtain rfl := Option.some.inj (owned.symm.trans two)
      rw [told, tells, same.component]

/-- Where ranks correspond to what they are alone, the report about each has those of all links that are on
the rank. -/
theorem Merges.links_eq_filter
    (components : topology.components.Pairwise fun first second => first.name ≠ second.name)
    (links : topology.links.Pairwise fun first second => first.name ≠ second.name)
    (merges : topology.Merges ranks report) {rank : Rank C} (among : rank ∈ ranks)
    (separate : (topology.only rank.id).Merges [alone rank.id] (reports rank.id))
    (corresponds : ∀ rank ∈ ranks, rank.Corresponds (topology.numbers rank.id) (alone rank.id)) :
    (reports rank.id).links =
      report.links.filter fun traffic => topology.carries rank.id traffic.name := by
  have numbered := @Merges.positions_links _ _ _ _ rank.id links merges
  refine eq_filter_of_positions ?_ fun number position there => ?_
  · have names := congrArg List.length separate.links
    rw [List.length_map, List.length_map] at names
    rw [numbered, names]
    exact length_positions.symm
  · rw [numbered] at there
    obtain ⟨link, found, kept, -⟩ := getElem?_of_positions there
    obtain ⟨traffic, told, name⟩ := merges.exists_traffic found
    obtain ⟨other, tells, called⟩ := separate.exists_traffic kept
    rw [told, tells, Option.some.injEq]
    refine Traffic.eq_of_counters (called.trans name.symm) fun side => ?_
    obtain ⟨sent, delivered⟩ := merges.counters position traffic told side
    obtain ⟨given, taken⟩ := separate.counters number other tells side
    rw [sent, delivered, given, taken]
    have apart := merges.nodup_ids
    exact ⟨(counted_eq components apart corresponds among there side rfl).symm,
      (counted_eq components apart corresponds among there side rfl).symm⟩

/-- Where ranks correspond to what they are alone, the report about them joins the reports about each. -/
theorem Merges.joins (components : topology.components.Pairwise fun first second => first.name ≠ second.name)
    (links : topology.links.Pairwise fun first second => first.name ≠ second.name)
    (merges : topology.Merges ranks report)
    (separate : ∀ rank ∈ ranks, (topology.only rank.id).Merges [alone rank.id] (reports rank.id))
    (corresponds : ∀ rank ∈ ranks, rank.Corresponds (topology.numbers rank.id) (alone rank.id)) :
    report.Joins topology (ranks.map Rank.id) reports := by
  refine ⟨?_, fun id inside => ?_, fun id inside => ?_⟩
  · rw [merges.each, List.flatMap_map, ← List.flatMap_pure_eq_map]
    refine List.flatMap_congr fun rank inside => ?_
    rw [(separate rank inside).each, List.map_singleton, Function.comp_apply,
      (corresponds rank inside).report]
    rfl
  · obtain ⟨rank, among, rfl⟩ := List.mem_map.mp inside
    exact merges.components_eq_filter components among (separate rank among) (corresponds rank among)
  · obtain ⟨rank, among, rfl⟩ := List.mem_map.mp inside
    exact merges.links_eq_filter components links among (separate rank among) corresponds

end Topology

end Rally
