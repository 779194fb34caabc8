import Rally.Proofs.Pool.BeforeFinish
import Rally.Proofs.Pool.ReportSums
/-!
# Taking a topology apart and putting a report together

The components of a topology are spread over ranks, each with a place for every component and most places
empty, and a report puts them together again by laying these tables over one another. Whatever happens on a
rank, its outline stays: its number, whose places it fills, and the names of its links. So the report has each
component once, at the position of its definition and in the state in which its own rank left it.
-/

namespace Rally

variable {C : Type}

/-- What never changes about a rank. -/
structure Outline where
  /-- Its number. -/
  id : RankId
  /-- The names of the components in their places. -/
  names : List (Option String)
  /-- The names of the links that it counts messages of. -/
  links : List String

namespace Rank

/-- What never changes about a rank. -/
def outline (rank : Rank C) : Outline where
  id := rank.id
  names := rank.slots.toList.map (Option.map Slot.name)
  links := rank.traffic.toList.map Traffic.name

/-- The name in the outline of a place is that of its component. -/
theorem getElem?_names (rank : Rank C) (id : ComponentId) :
    rank.outline.names[id]?.join = (rank.slot? id).map Slot.name := by
  rw [outline, List.getElem?_map, Array.getElem?_toList, slot?]
  cases rank.slots[id]? <;> rfl

/-- Counting messages of a link changes no name. -/
theorem links_modify (traffic : Array Traffic) (link : LinkId) (side : Side) (change : Flow → Flow) :
    (traffic.modify link fun entry => entry.modify side change).toList.map Traffic.name =
      traffic.toList.map Traffic.name := by
  refine List.ext_getElem? fun other => ?_
  simp only [List.getElem?_map, Array.getElem?_toList, Array.getElem?_modify]
  split
  · rw [Option.map_map]
    refine congrFun (congrArg Option.map (funext fun entry => ?_)) _
    cases side <;> rfl
  · rfl

/-- No act changes the outline of a rank. -/
theorem Act.outline {within : Instant → Prop} {first last : Rank C} {deeds : List Deed}
    (act : Act within first deeds last) : last.outline = first.outline := by
  cases act with
  | wrote | started => rfl
  | absorbed id slot reaction owned =>
    have names : ((first.absorb id slot reaction).slots.toList.map (Option.map Slot.name)) =
        first.slots.toList.map (Option.map Slot.name) := by
      refine List.ext_getElem? fun other => ?_
      by_cases here : other = id
      · subst here
        have room := lt_size_of_slot? owned
        have there : first.slots[other] = some slot := by
          rw [slot?, Array.getElem?_eq_getElem room] at owned
          exact owned
        simp [absorb, room, there]
      · simp [absorb, Ne.symm here]
    simp only [Rank.outline, names]
    rfl
  | sent id slot port binding message =>
    have names := links_modify first.traffic binding.link binding.side
      fun flow => { flow with sent := flow.sent + 1 }
    by_cases here : (first.receiver (delivery binding message)).rank = first.id
    · rw [send_of_eq here]
      exact congrArg (Outline.mk first.id _) names
    · rw [send_of_ne here]
      exact congrArg (Outline.mk first.id _) names
  | took event pending =>
    rw [take]
    cases first.slot? (first.receiver event.payload).component with
    | none => rfl
    | some slot =>
      exact congrArg (Outline.mk first.id _) (links_modify first.traffic event.payload.link
        event.payload.arrival.opposite fun flow => { flow with delivered := flow.delivered + 1 })

/-- Several acts do not change it. -/
theorem Course.outline {within : Instant → Prop} {first last : Rank C} {deeds : List Deed}
    (course : Course within first deeds last) : last.outline = first.outline :=
  course.keeps (fun rank => rank.outline = first.outline)
    (fun _ _ _ same act => act.outline.trans same) rfl

variable [Component C]

/-- Setup hooks change nothing about the outline of a rank. -/
theorem outline_start (rank : Rank C) : rank.start.1.outline = rank.outline :=
  start_keeps (fun id middle same => (@setup_course _ (fun _ => True) _ id middle).outline.trans same) rfl

/-- Nor do finish hooks. -/
theorem outline_finish (rank : Rank C) : rank.finish.1.outline = rank.outline :=
  finish_keeps (fun id middle same => (@finishOne_course _ (fun _ => True) _ id middle).outline.trans same)
    rfl

/-- Nor does the dispatch of messages. -/
theorem outline_dispatchUntil {bound : Option Instant} {byVote : Bool} {fuel : Nat} {rank last : Rank C}
    {ending : Except Halt Stop} (runs : rank.dispatchUntil bound byVote fuel = some (last, ending)) :
    last.outline = rank.outline :=
  dispatchUntil_keeps (fun middle event pending same turn =>
    (@dispatch_course _ (fun _ => True) _ event pending middle (turn_ok turn).1 trivial).outline.trans same)
    rfl runs

end Rank

namespace Worker

variable [Component C] {fuel : Nat}

/-- Nor does a window. -/
theorem outline_advance {start : Instant} {bound : Option Instant} {byVote : Bool}
    {worker last : Worker C} (moved : worker.advance fuel start bound byVote = some last) :
    last.rank.outline = worker.rank.outline := by
  rw [advance] at moved
  split at moved
  · cases moved
    rfl
  · dsimp only at moved
    split at moved
    · cases moved
    all_goals
      next runs =>
        cases moved
        exact (Rank.outline_dispatchUntil runs).trans rfl

/-- Nor does the end of a run. -/
theorem outline_conclude (decision : Decision) (windows : Nat) (worker : Worker C) :
    (Windows.conclude decision windows worker).1.rank.outline = worker.rank.outline := by
  cases decision with
  | proceed | abort => rfl
  | stop reason =>
    have here := (worker.note .debug
      ["stopping after ", toString windows, " windows: ", reason.message]).rank.outline_finish
    rw [Windows.conclude, finish]
    split
    all_goals
      next called =>
        rw [called] at here
        exact here

end Worker

namespace Windows

variable [Component C] {fuel : Nat} {lookahead : Option Duration}

omit [Component C] in
/-- Nor does the exchange between two windows. -/
theorem outlines_exchange (workers : List (Worker C)) :
    (exchange workers).map (fun worker => worker.rank.outline) =
      workers.map fun worker => worker.rank.outline := by
  have here (worker : Worker C) :
      (worker.ship (workers.map fun worker => worker.rank.id)).1.rank.outline =
        worker.rank.outline := by
    rw [Worker.ship]
    split <;> rfl
  rw [exchange, List.map_map, List.map_map]
  exact List.map_congr_left fun worker _ => here worker

/-- Nor does one window of all ranks. -/
theorem outlines_window {round : Nat} {start : Instant} {workers next : List (Worker C)}
    (moved : window fuel lookahead round start workers = some next) :
    next.map (fun worker => worker.rank.outline) =
      workers.map fun worker => worker.rank.outline := by
  obtain ⟨advanced, all, rfl⟩ := Option.map_eq_some_iff.mp moved
  rw [outlines_exchange]
  exact (map_eq_of_related ((related_of_mapM all).imp fun _ _ here =>
    (Worker.outline_advance here).symm)).symm

/-- Nor do all windows of a run. -/
theorem outlines_run {round windows : Nat} {start : Instant} {workers last : List (Worker C)}
    {decision : Decision} (runs : run lookahead fuel round start workers = some (last, decision, windows)) :
    last.map (fun worker => worker.rank.outline) =
      workers.map fun worker => worker.rank.outline := by
  induction fuel generalizing round start workers with
  | zero => cases runs
  | succ fuel ih =>
    rw [run] at runs
    split at runs
    · cases runs
    · next moved =>
      have here := outlines_window moved
      split at runs
      · exact (ih runs).trans here
      · cases runs
        exact here

end Windows

/-- What the ranks of a run count in a direction of a link together, by one of the two counters. -/
def counted (ranks : List (Rank C)) (link : LinkId) (side : Side) (counter : Flow → Nat) : Nat :=
  (ranks.map fun rank => counter ((rank.traffic.getD link default).leaving side)).sum

namespace Report

/-- The links of several ranks are added in their places: each keeps its name, and its counters are summed. -/
theorem getElem?_foldl_mergeTraffic {ranks : List (Rank C)} {links : List Traffic}
    (size : ∀ rank ∈ ranks, rank.traffic.size = links.length) (link : LinkId) :
    (ranks.foldl (fun links rank => mergeTraffic links rank.traffic.toList) links)[link]? =
      links[link]?.map fun traffic => ⟨traffic.name,
        ⟨traffic.aToB.sent + counted ranks link .a Flow.sent,
          traffic.aToB.delivered + counted ranks link .a Flow.delivered⟩,
        ⟨traffic.bToA.sent + counted ranks link .b Flow.sent,
          traffic.bToA.delivered + counted ranks link .b Flow.delivered⟩⟩ := by
  induction ranks generalizing links with
  | nil =>
    rw [List.foldl_nil]
    cases links[link]? <;> rfl
  | cons rank rest ih =>
    have own := size rank List.mem_cons_self
    have merged : mergeTraffic links rank.traffic.toList =
        links.zipWith Traffic.add rank.traffic.toList := by
      rw [mergeTraffic]
      split
      · next empty =>
        rw [List.isEmpty_iff] at empty
        subst empty
        exact List.eq_nil_of_length_eq_zero (Array.length_toList.trans own)
      · rfl
    have long : (mergeTraffic links rank.traffic.toList).length = links.length := by
      rw [merged, List.length_zipWith, (Array.length_toList).trans own, Nat.min_self]
    rw [List.foldl_cons, ih fun other behind =>
      (size other (List.mem_cons_of_mem _ behind)).trans long.symm, merged, List.getElem?_zipWith]
    cases there : links[link]? with
    | none => rfl
    | some traffic =>
      have room : link < rank.traffic.size := by
        rw [own]
        exact (List.getElem?_eq_some_iff.mp there).1
      simp only [Array.getElem?_toList, Array.getElem?_eq_getElem room, Option.map_some, counted,
        List.map_cons, List.sum_cons, Array.getD_eq_getD_getElem?, Option.getD_some, Traffic.add,
        Flow.add, Traffic.leaving, Nat.add_assoc]

/-- The links of several ranks in a report. -/
theorem getElem?_links {ranks : List (Rank C)} {reason : Termination} {count : Nat} (some : ranks ≠ [])
    (size : ∀ rank ∈ ranks, rank.traffic.size = count) (link : LinkId) (traffic : Traffic)
    (there : (ofRanks reason ranks).links[link]? = .some traffic) (side : Side) :
    (traffic.leaving side).sent = counted ranks link side Flow.sent ∧
      (traffic.leaving side).delivered = counted ranks link side Flow.delivered := by
  cases ranks with
  | nil => exact absurd rfl some
  | cons first rest =>
    have own := size first List.mem_cons_self
    change (rest.foldl (fun links rank => mergeTraffic links rank.traffic.toList)
      first.traffic.toList)[link]? = _ at there
    rw [getElem?_foldl_mergeTraffic fun other behind =>
      (size other (List.mem_cons_of_mem _ behind)).trans (Array.length_toList.trans own).symm] at there
    obtain ⟨own, found, rfl⟩ := Option.map_eq_some_iff.mp there
    rw [Array.getElem?_toList] at found
    simp only [counted, List.map_cons, List.sum_cons, Array.getD_eq_getD_getElem?, found,
      Option.getD_some]
    cases side <;> exact ⟨rfl, rfl⟩

/-- The links of a report have the names of those of each rank. -/
theorem names_links {first : Rank C} {rest : List (Rank C)} {reason : Termination}
    (size : ∀ rank ∈ rest, rank.traffic.size = first.traffic.size) :
    (ofRanks reason (first :: rest)).links.map Traffic.name =
      first.traffic.toList.map Traffic.name := by
  refine List.ext_getElem? fun link => ?_
  change ((rest.foldl (fun links rank => mergeTraffic links rank.traffic.toList)
    first.traffic.toList).map Traffic.name)[link]? = _
  rw [List.getElem?_map, List.getElem?_map, getElem?_foldl_mergeTraffic fun other behind =>
    (size other behind).trans Array.length_toList.symm, Option.map_map]
  rfl

end Report

/-- What never changes about a rank of a topology. -/
def Topology.outline (topology : Topology) (rank : RankId) : Outline where
  id := rank
  names := topology.components.map fun spec => if spec.rank = rank then some spec.name else none
  links := topology.links.map LinkSpec.name

/-- How a topology is taken apart: by rank numbers, with each component on the rank of its definition. -/
structure Topology.Partitions (topology : Topology) (ranks : List (Rank C)) : Prop where
  /-- The ranks are in ascending order, each of them once. -/
  ascending : ranks.Pairwise fun former latter => former.id < latter.id
  /-- Without components there is rank 0 alone. -/
  bare : topology.components = [] → ranks.map Rank.id = [0]
  /-- Otherwise the ranks are those that components name. -/
  used : topology.components ≠ [] → ∀ id,
    (∃ rank ∈ ranks, rank.id = id) ↔ ∃ spec ∈ topology.components, spec.rank = id
  /-- Every rank has a place for each component. -/
  size : ∀ rank ∈ ranks, rank.slots.size = topology.components.length
  /-- The component is there on the rank that its definition names, and on no other one. -/
  placed : ∀ rank ∈ ranks, ∀ position spec, topology.components[position]? = some spec →
    (rank.slot? position).map Slot.name = if spec.rank = rank.id then some spec.name else none

/-- How a report puts together what the ranks of a topology are in the end. -/
structure Topology.Merges (topology : Topology) (ranks : List (Rank C)) (report : Report C) : Prop where
  /-- Each component is there once, in the order of registration. -/
  names : report.components.map Prod.fst = topology.components.map ComponentSpec.name
  /-- It is in the state in which its own rank has it. -/
  states : ∀ position spec, topology.components[position]? = some spec →
    ∃ rank ∈ ranks, rank.id = spec.rank ∧ ∃ slot, rank.slot? position = some slot ∧
      report.components[position]? = some (spec.name, slot.component)
  /-- The links are there in the order of their definition. -/
  links : report.links.map Traffic.name = topology.links.map LinkSpec.name
  /-- Their counters are the sums of those of the ranks. -/
  counters : ∀ link traffic, report.links[link]? = some traffic → ∀ side,
    (traffic.leaving side).sent = counted ranks link side Flow.sent ∧
      (traffic.leaving side).delivered = counted ranks link side Flow.delivered
  /-- There is one report for each rank. -/
  each : report.ranks = ranks.map RankReport.ofRank
  /-- They are in ascending order. -/
  ascending : report.ranks.Pairwise fun former latter => former.rank < latter.rank
  /-- The events are those of all ranks. -/
  events : report.events = (ranks.map Rank.dispatched).sum
  /-- No rank ends later than the report says. -/
  latest : ∀ rank ∈ ranks, rank.lastTime ≤ report.endTime
  /-- Some rank does end then. -/
  attained : ∃ rank ∈ ranks, rank.lastTime = report.endTime

namespace Topology

variable {topology : Topology} {ranks others : List (Rank C)}

/-- Among ranks with the outlines that a topology asks for, each has that of its number. -/
theorem outline_eq
    (same : ranks.map Rank.outline =
      (Simulation.rankIds (topology.components.map ComponentSpec.rank)).map topology.outline)
    {rank : Rank C} (inside : rank ∈ ranks) : rank.outline = topology.outline rank.id := by
  have among : rank.outline ∈ ranks.map Rank.outline := List.mem_map_of_mem inside
  rw [same] at among
  obtain ⟨id, -, there⟩ := List.mem_map.mp among
  rw [← there]
  exact congrArg topology.outline (congrArg Outline.id there)

/-- Such ranks take the topology apart. -/
theorem partitions_of_outlines
    (same : ranks.map Rank.outline =
      (Simulation.rankIds (topology.components.map ComponentSpec.rank)).map topology.outline) :
    topology.Partitions ranks := by
  have ids : ranks.map Rank.id =
      Simulation.rankIds (topology.components.map ComponentSpec.rank) := by
    have numbers := congrArg (List.map Outline.id) same
    rw [List.map_map, List.map_map] at numbers
    exact numbers.trans (List.map_id _)
  refine ⟨?_, fun none => ?_, fun some id => ?_, fun rank inside => ?_,
    fun rank inside position spec there => ?_⟩
  · have ascending := Simulation.rankIds_ascending (topology.components.map ComponentSpec.rank)
    rwa [← ids, List.pairwise_map] at ascending
  · rw [ids, none]
    rfl
  · have members := @Simulation.mem_rankIds_iff (topology.components.map ComponentSpec.rank)
      (fun empty => some (List.map_eq_nil_iff.mp empty)) id
    rwa [← ids, List.mem_map, List.mem_map] at members
  · have names := congrArg (fun outline => outline.names.length) (outline_eq same inside)
    simpa only [Rank.outline, outline, List.length_map, Array.length_toList] using names
  · rw [← Rank.getElem?_names, outline_eq same inside, outline, List.getElem?_map, there]
    rfl

/-- No two ranks of a topology that is taken apart have one number. -/
theorem Partitions.eq_of_id (partitions : topology.Partitions ranks) {rank other : Rank C}
    (inside : rank ∈ ranks) (among : other ∈ ranks) (same : rank.id = other.id) : rank = other := by
  have distinct : (ranks.map Rank.id).Nodup :=
    List.pairwise_map.mpr (partitions.ascending.imp Nat.ne_of_lt)
  exact List.inj_on_of_nodup_map distinct inside among same

/-- A component is on the rank that its definition names. -/
theorem Partitions.exists_slot (partitions : topology.Partitions ranks) {position : ComponentId}
    {spec : ComponentSpec} (there : topology.components[position]? = some spec) :
    ∃ rank ∈ ranks, rank.id = spec.rank ∧
      ∃ slot, rank.slot? position = some slot ∧ slot.name = spec.name := by
  have among := List.mem_of_getElem? there
  obtain ⟨rank, inside, here⟩ :=
    (partitions.used (List.ne_nil_of_mem among) spec.rank).mpr ⟨spec, among, rfl⟩
  have placed := partitions.placed rank inside position spec there
  rw [if_pos here.symm] at placed
  exact ⟨rank, inside, here, Option.map_eq_some_iff.mp placed⟩

/-- No other rank has it. -/
theorem Partitions.rank_eq (partitions : topology.Partitions ranks) {rank : Rank C} (inside : rank ∈ ranks)
    {position : ComponentId} {slot : Slot C} (owned : rank.slot? position = some slot) :
    ∃ spec, topology.components[position]? = some spec ∧ rank.id = spec.rank := by
  have room := Rank.lt_size_of_slot? owned
  rw [partitions.size rank inside] at room
  refine ⟨_, List.getElem?_eq_getElem room, ?_⟩
  have placed := partitions.placed rank inside position _ (List.getElem?_eq_getElem room)
  rw [owned] at placed
  split at placed
  · next here => exact here.symm
  · cases placed

/-- What two ranks have for one component is the same. -/
theorem Partitions.slot_eq (partitions : topology.Partitions ranks) {rank other : Rank C}
    (inside : rank ∈ ranks) (among : other ∈ ranks) {position : ComponentId} {slot also : Slot C}
    (here : rank.slot? position = some slot) (there : other.slot? position = some also) :
    slot = also := by
  obtain ⟨spec, found, first⟩ := partitions.rank_eq inside here
  obtain ⟨twin, again, second⟩ := partitions.rank_eq among there
  obtain rfl := Option.some.inj (found.symm.trans again)
  obtain rfl := partitions.eq_of_id inside among (first.trans second.symm)
  exact Option.some.inj (here.symm.trans there)

/-- The merged report shows a component as it is on the rank that its definition names. -/
theorem Partitions.states (partitions : topology.Partitions ranks) (reason : Termination)
    {position : ComponentId} {spec : ComponentSpec}
    (there : topology.components[position]? = some spec) :
    ∃ rank ∈ ranks, rank.id = spec.rank ∧ ∃ slot, rank.slot? position = some slot ∧
      (Report.ofRanks reason ranks).components[position]? = some (spec.name, slot.component) := by
  obtain ⟨rank, inside, here, slot, held, name⟩ := partitions.exists_slot there
  refine ⟨rank, inside, here, slot, held, ?_⟩
  rw [← name]
  refine Report.getElem?_components partitions.size (fun id room => ?_)
    (fun rank inside other among id slot also => partitions.slot_eq inside among) inside held
  obtain ⟨rank, inside, -, slot, there, -⟩ :=
    partitions.exists_slot (List.getElem?_eq_getElem room)
  exact ⟨rank, inside, slot, there⟩

/-- The merged report shows the components in the order of their definition. -/
theorem Partitions.names_components (partitions : topology.Partitions ranks) (reason : Termination) :
    (Report.ofRanks reason ranks).components.map Prod.fst =
      topology.components.map ComponentSpec.name := by
  refine List.ext_getElem? fun position => ?_
  rw [List.getElem?_map, List.getElem?_map]
  by_cases room : position < topology.components.length
  · have there := List.getElem?_eq_getElem room
    obtain ⟨-, -, -, slot, -, found⟩ := partitions.states reason there
    rw [found, there]
    rfl
  · have beyond := Nat.le_of_not_lt room
    rw [List.getElem?_eq_none beyond, List.getElem?_eq_none
      ((Report.length_components partitions.size).trans beyond)]
    rfl

/-- There is such a rank. -/
theorem ne_nil_of_outlines
    (same : ranks.map Rank.outline =
      (Simulation.rankIds (topology.components.map ComponentSpec.rank)).map topology.outline) :
    ranks ≠ [] := by
  rintro rfl
  by_cases bare : topology.components = []
  · rw [bare] at same
    cases same
  · obtain ⟨spec, among⟩ := List.exists_mem_of_ne_nil _ bare
    obtain ⟨rank, inside, -⟩ :=
      ((partitions_of_outlines same).used bare spec.rank).mpr ⟨spec, among, rfl⟩
    cases inside

/-- The report about ranks with these outlines puts the topology together again. -/
theorem merges_of_outlines (reason : Termination)
    (same : ranks.map Rank.outline =
      (Simulation.rankIds (topology.components.map ComponentSpec.rank)).map topology.outline) :
    topology.Merges ranks (Report.ofRanks reason ranks) := by
  have partitions := partitions_of_outlines same
  have some := ne_nil_of_outlines same
  have names : ∀ rank ∈ ranks, rank.traffic.toList.map Traffic.name =
      topology.links.map LinkSpec.name :=
    fun rank inside => congrArg Outline.links (outline_eq same inside)
  have sizes : ∀ rank ∈ ranks, rank.traffic.size = topology.links.length := by
    intro rank inside
    simpa only [List.length_map, Array.length_toList] using congrArg List.length (names rank inside)
  refine ⟨partitions.names_components reason, fun position spec => partitions.states reason, ?_,
    Report.getElem?_links some sizes, rfl, List.pairwise_map.mpr partitions.ascending,
    Report.events_ofRanks reason ranks, ?_, ?_⟩
  · cases ranks with
    | nil => exact absurd rfl some
    | cons first rest =>
      have own := names first List.mem_cons_self
      rw [Report.names_links fun other behind => ?_, own]
      exact (sizes other (List.mem_cons_of_mem _ behind)).trans (sizes first List.mem_cons_self).symm
  · exact fun rank inside => Report.lastTime_le_endTime reason inside
  · rcases List.mem_cons.mp (Report.endTime_mem reason ranks) with zero | inside
    · obtain ⟨rank, inside⟩ := List.exists_mem_of_ne_nil _ some
      refine ⟨rank, inside, le_antisymm (Report.lastTime_le_endTime reason inside) ?_⟩
      rw [zero]
      exact Duration.zero_le _
    · exact List.mem_map.mp inside

end Topology

namespace Simulation

variable {registry : Registry C} {options : Options} {topology : Topology} {clock moment : Instant}
  {journal : Journal} {simulation : Simulation C} {filter : Filter} {fuel : Nat} {result : RunResult C}
  {report : Report C}

/-- The ranks of a simulation that was built have the outlines that its topology asks for. -/
theorem outlines_of_build (built : (build registry options topology clock journal).2 = .ok simulation) :
    simulation.ranks.map Rank.outline =
      (rankIds (topology.components.map ComponentSpec.rank)).map topology.outline := by
  obtain ⟨assembly, placed, resolved, created, ranks, -⟩ := build_ok built
  have follows := Assembly.follows_of_ofTopology resolved
  -- What a rank keeps of a component is its name, in the place that its rank tells.
  let describe (id : RankId) (named : String × RankId) : Option String :=
    if named.2 = id then some named.1 else none
  have parts : assembly.parts.toList.map (fun part => (part.name, part.rank)) =
      placed.map fun component => (component.slot.name, component.rank) :=
    map_eq_of_related ((creates_of_placeAll created).imp fun _ _ ⟨_, _, same⟩ => by rw [same])
  have specs : topology.components.map (fun spec => (spec.name, spec.rank)) =
      assembly.parts.toList.map fun part => (part.name, part.rank) :=
    map_eq_of_related (follows.described.imp fun _ _ describes => by
      rw [describes.name, describes.rank])
  have links : topology.links.map LinkSpec.name = assembly.links.toList.map Link.name :=
    map_eq_of_related (follows.joined.imp fun _ _ joins => joins.name.symm)
  have outline (id : RankId) :
      (rankOf assembly.links options.limit placed id).outline = topology.outline id := by
    have names : topology.components.map (fun spec =>
        if spec.rank = id then some spec.name else none) = placed.map fun component =>
          if component.rank = id then some component.slot.name else none := by
      have same := congrArg (List.map (describe id)) (specs.trans parts)
      rwa [List.map_map, List.map_map] at same
    rw [Rank.outline, Topology.outline, names, links]
    simp only [rankOf, List.map_map, Array.toList_map]
    congr 1
    refine List.map_congr_left fun component _ => ?_
    rw [Function.comp_apply]
    split <;> rfl
  rw [← ids_of_build built, ranks, List.map_map, List.map_map, List.map_map]
  exact List.map_congr_left fun id _ => outline id

variable [Component C]

/-- The ranks behind a run, and how it ended. -/
def behind (fuel : Nat) (filter : Filter) (simulation : Simulation C) :
    Option (List (Rank C) × Except Halt Termination) :=
  match simulation.ranks.map (logged filter) with
  | [] => some ([], .ok .eventsExhausted)
  | [rank] => (runSingle fuel rank).map fun (rank, reason) => ([rank], reason)
  | ranks =>
    (runWindows fuel simulation.lookahead ranks).map fun (ranks, reason) =>
      (ranks, reason.mapError .failed)

/-- The report of a run is about the ranks behind it. -/
theorem behind_of_run (runs : simulation.run fuel filter moment = some result)
    (ok : result.outcome = .ok report) :
    ∃ ranks, simulation.behind fuel filter = some (ranks, .ok report.reason) ∧
      report = Report.ofRanks report.reason ranks := by
  rw [run] at runs
  rw [behind]
  generalize simulation.ranks.map (logged filter) = ranks at runs
  rcases ranks with - | ⟨rank, - | ⟨second, rest⟩⟩
  · cases runs
    obtain rfl := Except.ok.inj ok
    exact ⟨[], rfl, rfl⟩
  · obtain ⟨⟨last, ending⟩, alone, rfl⟩ := Option.map_eq_some_iff.mp runs
    cases ending with
    | error halt => cases ok
    | ok reason =>
      obtain rfl := Except.ok.inj ok
      exact ⟨[last], by simp only [alone]; rfl, rfl⟩
  · obtain ⟨⟨last, ending⟩, among, rfl⟩ := Option.map_eq_some_iff.mp runs
    cases ending with
    | error problem => cases ok
    | ok reason =>
      obtain rfl := Except.ok.inj ok
      exact ⟨last, by simp only [among]; rfl, rfl⟩

/-- The run of a single rank changes nothing about its outline. -/
theorem outline_runSingle {rank last : Rank C} {ending : Except Halt Termination}
    (runs : runSingle fuel rank = some (last, ending)) : last.outline = rank.outline := by
  have begun := rank.outline_start
  cases singly_of_runSingle runs with
  | unready started =>
    rw [started] at begun
    exact begun
  | broken started dispatched =>
    rw [started] at begun
    exact (Rank.outline_dispatchUntil dispatched).trans begun
  | @unfinished _ stopped _ _ _ started dispatched finished
  | @finished _ stopped _ _ started dispatched finished =>
    have ended := stopped.outline_finish
    rw [finished] at ended
    rw [started] at begun
    exact ended.trans ((Rank.outline_dispatchUntil dispatched).trans begun)

/-- Nor does the run of several ranks. -/
theorem outlines_runWindows {lookahead : Option Duration} {ranks last : List (Rank C)}
    {ending : Except RunError Termination}
    (runs : runWindows fuel lookahead ranks = some (last, ending)) :
    last.map Rank.outline = ranks.map Rank.outline := by
  obtain ⟨workers, decision, windows, moved, rfl, -⟩ := exists_run_of_runWindows runs
  have behind := Windows.outlines_run moved
  rw [List.map_map] at behind
  rw [List.map_map, List.map_map]
  refine (List.map_congr_left fun worker _ =>
    worker.outline_conclude decision windows).trans (behind.trans ?_)
  exact List.map_congr_left fun rank _ => rank.outline_start

/-- A run changes nothing about the outlines of ranks. -/
theorem outlines_behind {ranks : List (Rank C)} {ending : Except Halt Termination}
    (ended : simulation.behind fuel filter = some (ranks, ending)) :
    ranks.map Rank.outline = simulation.ranks.map Rank.outline := by
  have muted : (simulation.ranks.map (logged filter)).map Rank.outline =
      simulation.ranks.map Rank.outline := List.map_map
  rw [← muted]
  rw [behind] at ended
  generalize simulation.ranks.map (logged filter) = before at ended
  rcases before with - | ⟨rank, - | ⟨second, rest⟩⟩
  · cases ended
    rfl
  · obtain ⟨⟨last, result⟩, alone, same⟩ := Option.map_eq_some_iff.mp ended
    cases same
    rw [List.map_singleton, List.map_singleton, outline_runSingle alone]
  · obtain ⟨⟨last, result⟩, among, same⟩ := Option.map_eq_some_iff.mp ended
    cases same
    exact outlines_runWindows among

/-- Every topology that builds is taken apart by the ranks of its components, and the report of every run
puts together what these ranks are in the end. -/
theorem merges_of_partitions
    (built : (build registry options topology clock journal).2 = .ok simulation) :
    topology.Partitions simulation.ranks ∧ ∀ fuel filter moment result report,
      simulation.run fuel filter moment = some result → result.outcome = .ok report →
      ∃ ranks, simulation.behind fuel filter = some (ranks, .ok report.reason) ∧
        topology.Merges ranks report := by
  have outlines := outlines_of_build built
  refine ⟨Topology.partitions_of_outlines outlines, fun fuel filter moment result report runs ok => ?_⟩
  obtain ⟨ranks, ended, about⟩ := behind_of_run runs ok
  refine ⟨ranks, ended, ?_⟩
  rw [about]
  exact Topology.merges_of_outlines _ ((outlines_behind ended).trans outlines)

/-- Three players on ranks 7 and 3: the ranks are told from the lesser number on, and the players in the order
of their registration. -/
theorem merges_of_partitions_sparse :
    ∃ (simulation : Simulation Player) (result : RunResult Player) (report : Report Player)
      (ranks : List (Rank Player)),
      (build (Registry.builtin id) {}
        (.relayChain [(.initiator, 7), (.responder, 3), (.responder, 7)] 2) Instant.zero
        ⟨Filter.off, #[]⟩).2 = .ok simulation ∧
      simulation.run 16 Filter.off Instant.zero = some result ∧ result.outcome = .ok report ∧
      simulation.ranks.map Rank.id = [3, 7] ∧
      report.components.map Prod.fst = ["Ping0", "Pong1", "Pong2"] ∧
      (Topology.relayChain [(.initiator, 7), (.responder, 3), (.responder, 7)] 2).Partitions
        simulation.ranks ∧
      simulation.behind 16 Filter.off = some (ranks, .ok report.reason) ∧
      (Topology.relayChain [(.initiator, 7), (.responder, 3), (.responder, 7)] 2).Merges ranks report := by
  obtain ⟨simulation, result, report, built, runs, ok, seen⟩ := @exists_run _ _
    (Registry.builtin id) {} (.relayChain [(.initiator, 7), (.responder, 3), (.responder, 7)] 2)
    Instant.zero Instant.zero ⟨Filter.off, #[]⟩ Filter.off 16 _
    (fun simulation report => (simulation.ranks.map Rank.id, report.components.map Prod.fst))
    ([3, 7], ["Ping0", "Pong1", "Pong2"]) (by decide +kernel)
  obtain ⟨ids, names⟩ := Prod.mk.inj seen
  obtain ⟨partitions, merges⟩ := merges_of_partitions built
  obtain ⟨ranks, ended, merged⟩ := merges 16 Filter.off Instant.zero result report runs ok
  exact ⟨simulation, result, report, ranks, built, runs, ok, ids, names, partitions, ended, merged⟩

end Simulation

end Rally
