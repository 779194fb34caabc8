import Mathlib.Algebra.BigOperators.Fin
import Mathlib.Algebra.Order.BigOperators.Group.Finset
import Rally.Proofs.Pool.RankProgress
import Rally.Proofs.Pool.RunOutcomes
/-!
# What a report tells about components

A report is made of what the ranks count. Together they count the messages that components received and
gave: a report tells how many these are in all and on each way, when the last one was received, and how
each component ended.
-/

namespace Rally

/-- Messages for some components are as many as those for each of them together. -/
theorem length_eq_sum_goesTo {links : Array Link} {count : Nat} {entries : List (Instant × Delivery)}
    (known : ∀ entry ∈ entries, (entry.2.goal links).component < count) :
    entries.length = ∑ id ∈ Finset.range count, (entries.filter (goesTo links id)).length := by
  induction entries with
  | nil => simp
  | cons entry rest ih =>
    have behind := ih fun other inside => known other (List.mem_cons_of_mem _ inside)
    have here := known entry List.mem_cons_self
    have each (id : ComponentId) : ((entry :: rest).filter (goesTo links id)).length =
        (rest.filter (goesTo links id)).length +
          if (entry.2.goal links).component = id then 1 else 0 := by
      have goes : goesTo links id entry = true ↔ (entry.2.goal links).component = id := beq_iff_eq
      by_cases here : (entry.2.goal links).component = id
      · rw [List.filter_cons, if_pos (goes.mpr here), if_pos here, List.length_cons]
      · rw [List.filter_cons, if_neg fun same => here (goes.mp same), if_neg here, Nat.add_zero]
    simp only [each, Finset.sum_add_distrib, Finset.sum_ite_eq, Finset.mem_range, if_pos here]
    rw [List.length_cons, behind]

/-- Where all members of a list are there, what a function makes of them is in their places. -/
theorem getElem?_filterMap_of_some {α β : Type} {make : α → β} {members : List (Option α)}
    (all : ∀ entry ∈ members, ∃ member, entry = some member) {position : Nat} {member : α}
    (there : members[position]? = some (some member)) :
    (members.filterMap fun entry => entry.map make)[position]? = some (make member) := by
  induction members generalizing position with
  | nil => cases there
  | cons first rest ih =>
    obtain ⟨own, rfl⟩ := all first List.mem_cons_self
    rw [List.filterMap_cons_some (by rfl)]
    cases position with
    | zero =>
      cases there
      rfl
    | succ position => exact ih (fun entry among => all entry (List.mem_cons_of_mem _ among)) there

variable {C : Type} {n : Nat} {plan : Plan n} {links : Array Link} {count : Nat}

namespace Report

/-- Ranks that follow others override no component where all have the same one. -/
theorem foldl_or {ranks : List (Rank C)} {id : ComponentId} {slot : Slot C} {former : Option (Slot C)}
    (known : former = some slot ∨ ∃ rank ∈ ranks, rank.slot? id = some slot)
    (first : ∀ other, former = some other → other = slot)
    (same : ∀ rank ∈ ranks, ∀ other, rank.slot? id = some other → other = slot) :
    ranks.foldl (fun former rank => (rank.slot? id).or former) former = some slot := by
  induction ranks generalizing former with
  | nil => exact known.resolve_right fun ⟨_, inside, _⟩ => absurd inside List.not_mem_nil
  | cons rank rest ih =>
    have here := same rank List.mem_cons_self
    have behind := fun other inside => same other (List.mem_cons_of_mem rank inside)
    simp only [List.foldl_cons]
    cases owned : rank.slot? id with
    | some own =>
      obtain rfl := here own owned
      exact ih (Or.inl rfl) (fun other found => (Option.some.inj found).symm) behind
    | none =>
      refine ih ?_ first behind
      rcases known with there | ⟨other, inside, found⟩
      · exact Or.inl there
      · rcases List.mem_cons.mp inside with rfl | among
        · cases owned.symm.trans found
        · exact Or.inr ⟨other, among, found⟩

/-- The components of several ranks in one list, place by place. -/
theorem getElem?_foldl_mergeSlots {ranks : List (Rank C)} {slots : List (Option (Slot C))}
    (size : ∀ rank ∈ ranks, rank.slots.size = count) (long : slots.length = count)
    {id : ComponentId} {former : Option (Slot C)} (there : slots[id]? = some former) :
    (ranks.foldl (fun slots rank => mergeSlots slots rank.slots.toList) slots)[id]? =
      some (ranks.foldl (fun former rank => (rank.slot? id).or former) former) := by
  induction ranks generalizing slots former with
  | nil => exact there
  | cons rank rest ih =>
    have own := size rank List.mem_cons_self
    have inside : id < slots.length := (List.getElem?_eq_some_iff.mp there).1
    have present : slots.isEmpty = false := by
      rw [List.isEmpty_eq_false_iff_exists_mem]
      exact ⟨former, List.mem_of_getElem? there⟩
    have room : id < rank.slots.size := by
      rw [own, ← long]
      exact inside
    have found : rank.slots.toList[id]? = some (rank.slot? id) := by
      rw [Array.getElem?_toList, Rank.slot?, Array.getElem?_eq_getElem room]
      rfl
    have merged : mergeSlots slots rank.slots.toList =
        slots.zipWith (fun former slot => slot.or former) rank.slots.toList := by
      rw [mergeSlots, present, if_neg Bool.false_ne_true]
    simp only [List.foldl_cons]
    refine ih (fun other behind => size other (List.mem_cons_of_mem _ behind)) ?_ ?_
    · rw [merged, List.length_zipWith, long, Array.length_toList, own, Nat.min_self]
    · rw [merged, List.getElem?_zipWith_eq_some]
      exact ⟨former, rank.slot? id, there, found, rfl⟩

/-- A component of one of several ranks is in its place in the list of all. -/
theorem getElem?_mergeSlots {ranks : List (Rank C)}
    (size : ∀ rank ∈ ranks, rank.slots.size = count) {id : ComponentId} {slot : Slot C}
    (owned : ∃ rank ∈ ranks, rank.slot? id = some slot)
    (same : ∀ rank ∈ ranks, ∀ other, rank.slot? id = some other → other = slot) :
    (ranks.foldl (fun slots rank => mergeSlots slots rank.slots.toList) [])[id]? =
      some (some slot) := by
  cases ranks with
  | nil =>
    obtain ⟨_, inside, -⟩ := owned
    cases inside
  | cons first rest =>
    have own := size first List.mem_cons_self
    have inside : id < first.slots.size := by
      obtain ⟨rank, among, found⟩ := owned
      rw [own, ← size rank among]
      exact (Array.getElem?_eq_some_iff.mp (Option.join_eq_some_iff.mp found)).1
    have there : first.slots.toList[id]? = some (first.slot? id) := by
      rw [Array.getElem?_toList, Rank.slot?, Array.getElem?_eq_getElem inside]
      rfl
    rw [List.foldl_cons]
    refine (getElem?_foldl_mergeSlots (fun rank behind => size rank (List.mem_cons_of_mem _ behind))
      (Array.length_toList.trans own) there).trans (congrArg some (foldl_or ?_ ?_ ?_))
    · obtain ⟨rank, among, found⟩ := owned
      rcases List.mem_cons.mp among with rfl | behind
      · exact Or.inl found
      · exact Or.inr ⟨rank, behind, found⟩
    · exact same first List.mem_cons_self
    · exact fun rank behind => same rank (List.mem_cons_of_mem _ behind)

/-- The list of all components has a place for each of them. -/
theorem length_mergeSlots {ranks : List (Rank C)} {slots : List (Option (Slot C))}
    (size : ∀ rank ∈ ranks, rank.slots.size = count) (long : slots = [] ∨ slots.length = count) :
    (ranks.foldl (fun slots rank => mergeSlots slots rank.slots.toList) slots).length ≤ count := by
  induction ranks generalizing slots with
  | nil =>
    rcases long with rfl | same
    · exact Nat.zero_le _
    · exact same.le
  | cons rank rest ih =>
    have own := size rank List.mem_cons_self
    refine ih (fun other behind => size other (List.mem_cons_of_mem _ behind)) (Or.inr ?_)
    change (mergeSlots slots rank.slots.toList).length = count
    rw [mergeSlots]
    split
    · exact Array.length_toList.trans own
    · next some =>
      rcases long with rfl | same
      · exact absurd rfl some
      · rw [List.length_zipWith, same, Array.length_toList, own, Nat.min_self]

/-- Where each place has a component, the components of a report are those in their places. -/
theorem getElem?_components {ranks : List (Rank C)} {reason : Termination}
    (size : ∀ rank ∈ ranks, rank.slots.size = count)
    (owned : ∀ id < count, ∃ rank ∈ ranks, ∃ slot, rank.slot? id = some slot)
    (apart : ∀ rank ∈ ranks, ∀ other ∈ ranks, ∀ id slot also, rank.slot? id = some slot →
      other.slot? id = some also → slot = also) {rank : Rank C} (inside : rank ∈ ranks)
    {id : ComponentId} {slot : Slot C} (here : rank.slot? id = some slot) :
    (ofRanks reason ranks).components[id]? = some (slot.name, slot.component) := by
  let slots := ranks.foldl (fun slots rank => mergeSlots slots rank.slots.toList) []
  have there : slots[id]? = some (some slot) :=
    getElem?_mergeSlots size ⟨rank, inside, here⟩ fun other among also found =>
      apart other among rank inside id also slot found here
  have all : ∀ entry ∈ slots, ∃ slot : Slot C, entry = some slot := by
    intro entry among
    obtain ⟨position, found⟩ := List.mem_iff_getElem?.mp among
    have room : position < count :=
      lt_of_lt_of_le (List.getElem?_eq_some_iff.mp found).1 (length_mergeSlots size (Or.inl rfl))
    obtain ⟨other, among, own, known⟩ := owned position room
    have filled : slots[position]? = some (some own) :=
      getElem?_mergeSlots size ⟨other, among, known⟩ fun third inside also found =>
        apart third inside other among position also own found known
    exact ⟨own, Option.some.inj (found.symm.trans filled)⟩
  exact getElem?_filterMap_of_some all there

/-- A report has no more components than there are places. -/
theorem length_components {ranks : List (Rank C)} {reason : Termination}
    (size : ∀ rank ∈ ranks, rank.slots.size = count) :
    (ofRanks reason ranks).components.length ≤ count :=
  (List.length_filterMap_le _ _).trans (length_mergeSlots size (Or.inl rfl))

/-- Where each place has a component, it has as many. -/
theorem length_components_eq {ranks : List (Rank C)} {reason : Termination}
    (size : ∀ rank ∈ ranks, rank.slots.size = count)
    (owned : ∀ id < count, ∃ rank ∈ ranks, ∃ slot, rank.slot? id = some slot)
    (apart : ∀ rank ∈ ranks, ∀ other ∈ ranks, ∀ id slot also, rank.slot? id = some slot →
      other.slot? id = some also → slot = also) :
    (ofRanks reason ranks).components.length = count := by
  refine le_antisymm (length_components size) (Nat.le_of_not_lt fun short => ?_)
  obtain ⟨rank, inside, slot, here⟩ := owned _ short
  have there := @getElem?_components _ _ _ reason size owned apart _ inside _ _ here
  rw [List.getElem?_eq_none (le_refl _)] at there
  cases there

/-- A report ends when the last of its ranks does. -/
theorem endTime_ofRanks (reason : Termination) (ranks : List (Rank C)) :
    (ofRanks reason ranks).endTime = (ranks.map Rank.lastTime).foldl max Instant.zero := by
  rw [endTime, ofRanks, List.map_map]
  rfl

/-- The end is the start, or the time of the last message on some rank. -/
theorem endTime_mem (reason : Termination) (ranks : List (Rank C)) :
    (ofRanks reason ranks).endTime ∈ Instant.zero :: ranks.map Rank.lastTime := by
  rw [endTime_ofRanks]
  exact List.max?_mem List.max?_cons'

/-- No rank ends later than its report says. -/
theorem lastTime_le_endTime (reason : Termination) {ranks : List (Rank C)} {rank : Rank C}
    (inside : rank ∈ ranks) : rank.lastTime ≤ (ofRanks reason ranks).endTime := by
  rw [endTime_ofRanks]
  exact (List.max?_eq_some_iff.mp List.max?_cons').2 _
    (List.mem_cons_of_mem _ (List.mem_map_of_mem inside))

/-- The events of a report are the sum of what its ranks dispatched. -/
theorem events_ofRanks (reason : Termination) (ranks : List (Rank C)) :
    (ofRanks reason ranks).events = (ranks.map Rank.dispatched).sum := by
  rw [events, ← List.sum_eq_foldl_nat, ofRanks, List.map_map]
  rfl

/-- The messages sent are the sum of what the links were handed. -/
theorem messagesSent_eq_sum (report : Report C) :
    report.messagesSent = (report.links.map Traffic.sent).sum :=
  List.sum_eq_foldl_nat.symm

/-- The messages delivered are the sum of what the links handed over. -/
theorem messagesDelivered_eq_sum (report : Report C) :
    report.messagesDelivered = (report.links.map Traffic.delivered).sum :=
  List.sum_eq_foldl_nat.symm

/-- What a report tells of what components received and gave, and of how they ended. -/
structure Sums [Component C] (links : Array Link) (count : Nat) (seats : Seats C)
    (told gave : ComponentId → List (Instant × Delivery)) (report : Report C) : Prop where
  /-- As many messages were dispatched as components received. -/
  events : report.events = ∑ id ∈ Finset.range count, (told id).length
  /-- None of them was due behind the end. -/
  latest : ∀ id, ∀ entry ∈ told id, entry.1 ≤ report.endTime
  /-- The run ended when one of them was due, or where it began. -/
  attained : report.endTime = Instant.zero ∨ ∃ id, ∃ entry ∈ told id, entry.1 = report.endTime
  /-- All links are there. -/
  whole : report.links.length = links.size
  /-- Each direction of a link carried what was given there, and handed over what was received. -/
  carried : ∀ way : Way, way.link < links.size → ∃ traffic, report.links[way.link]? = some traffic ∧
    traffic.leaving way.side = ⟨((gave (way.near links).component).filter way.bears).length,
      ((told (way.far links).component).filter way.bears).length⟩
  /-- All components are there. -/
  full : report.components.length = count
  /-- Each component went through what it received. -/
  states : ∀ id seat, seats id = some seat → ∃ final,
    seat.follow? links (.setup id :: (told id).map .event) = some (final, gave id) ∧
      report.components[id]? = some (final.slot.name, final.slot.component)
  /-- Where all that was given was received, nothing is left. -/
  settled : Closed links told gave → ∀ rank ∈ report.ranks, rank.pending = 0

end Report

section Hooks

variable [Component C]

namespace System

variable {system : System C n} {first : Fin n → Rank C}

omit [Component C] in
/-- What was dispatched on the ranks is what their components received. -/
theorem Addressed.length_taken (addressed : system.Addressed plan links)
    (housing : Housing links plan.ids count first) :
    ∑ index, (takenOf (system.threads index).history).length =
      ∑ id ∈ Finset.range count, (system.told links id).length := by
  have all : ∑ index, (takenOf (system.threads index).history).length =
      ((List.finRange n).flatMap fun index => takenOf (system.threads index).history).length := by
    rw [List.length_flatMap, Fin.sum_univ_def]
  rw [all]
  refine length_eq_sum_goesTo fun entry inside => ?_
  obtain ⟨index, -, taken⟩ := List.mem_flatMap.mp inside
  obtain ⟨known, here⟩ := addressed.taken taken
  rw [← housing.size index]
  exact Rank.lt_size_of_seats (housing.home known here)

omit [Component C] in
/-- A message that a rank dispatched was received by one of its components. -/
theorem mem_told {entry : Instant × Delivery} {index : Fin n}
    (inside : entry ∈ takenOf (system.threads index).history) :
    entry ∈ system.told links (entry.2.goal links).component :=
  List.mem_filter.mpr
    ⟨List.mem_flatMap.mpr ⟨index, List.mem_finRange index, inside⟩, beq_self_eq_true _⟩

/-- Where nothing is on its way between ranks, and on each way all that was given was received, no rank
has a message left. -/
theorem Kept.pending_of_closed (kept : system.Kept plan links first)
    (housing : Housing links plan.ids count first) (rested : system.Rested plan links)
    (closed : Closed links (system.told links) (system.gave links)) (index : Fin n) :
    (system.threads index).rank.pending.inOrder = [] := by
  refine List.eq_nil_iff_forall_not_mem.mpr fun event inside => ?_
  let way : Way := ⟨event.payload.link, event.payload.arrival.opposite⟩
  obtain ⟨known, place⟩ := kept.flowing.addressed.pending index event inside
  have goal : plan.ids index = (way.far links).rank := by
    rw [Way.far, Side.opposite_opposite]
    exact place.symm
  obtain ⟨near, source⟩ := housing.placed way.link way.side known
  have told : system.told links (way.far links).component = _ :=
    told_eq housing kept.flowing.addressed (housing.home known goal.symm)
  have gave : system.gave links (way.near links).component = _ :=
    gave_eq housing kept.flowing.addressed (housing.home known source.symm)
  have whole := kept.flowing.conserved way near index source goal
  have equal := closed way known
  rw [told, gave, filter_goesTo, filter_comesFrom] at equal
  rw [passed, rested.lanes way near index source goal, way.sent_eq_filter, way.arrived_eq_filter,
    ← equal, List.map_nil, List.append_nil, List.append_right_eq_self] at whole
  have waits : event.entry ∈ way.waiting (system.threads index).rank :=
    List.mem_filter.mpr ⟨List.mem_map_of_mem inside, way.bears_iff.mpr rfl⟩
  rw [whole] at waits
  cases waits

/-- Ranks that have called no finish hook have the components that they had before the run. -/
theorem Kept.isSome_of_rested (kept : system.Kept plan links first)
    (sound : ∀ index, (system.threads index).Sound plan) (rested : system.Rested plan links)
    (index : Fin n) (id : ComponentId) :
    ((system.threads index).rank.slot? id).isSome = ((first index).seats id).isSome := by
  obtain ⟨visits, replays⟩ := kept.replayed index (sound index)
  obtain ⟨last, path, there⟩ := replays.path
  have seated := path.isSome_eq id
  rw [← there (rested.going index).2, Rank.seats, Option.isSome_map] at seated
  exact seated

/-- Each component is on some rank that has called no finish hook. -/
theorem Kept.owned_of_rested (kept : system.Kept plan links first)
    (housing : Housing links plan.ids count first)
    (sound : ∀ index, (system.threads index).Sound plan) (rested : system.Rested plan links) :
    ∀ id < count, ∃ rank ∈ List.ofFn fun index => (system.threads index).rank,
      ∃ slot, rank.slot? id = some slot := by
  intro id known
  obtain ⟨index, owned⟩ := housing.owned id known
  rw [← kept.isSome_of_rested sound rested] at owned
  obtain ⟨slot, there⟩ := Option.isSome_iff_exists.mp owned
  exact ⟨_, List.mem_ofFn.mpr ⟨index, rfl⟩, slot, there⟩

/-- No component is on two of them. -/
theorem Kept.apart_of_rested (kept : system.Kept plan links first)
    (housing : Housing links plan.ids count first)
    (sound : ∀ index, (system.threads index).Sound plan) (rested : system.Rested plan links) :
    ∀ rank ∈ List.ofFn fun index => (system.threads index).rank,
      ∀ other ∈ List.ofFn fun index => (system.threads index).rank, ∀ id slot also,
        rank.slot? id = some slot → other.slot? id = some also → slot = also := by
  intro rank inside other among id slot also here there
  obtain ⟨index, rfl⟩ := List.mem_ofFn.mp inside
  obtain ⟨further, rfl⟩ := List.mem_ofFn.mp among
  have same : index = further := by
    refine housing.apart index further id ?_ ?_
    · rw [← kept.isSome_of_rested sound rested, here]
      rfl
    · rw [← kept.isSome_of_rested sound rested, there]
      rfl
  subst same
  exact Option.some.inj (here.symm.trans there)

/-- A report about these ranks shows each component as what it received has left it. -/
theorem Kept.states_of_rested (kept : system.Kept plan links first)
    (housing : Housing links plan.ids count first)
    (sound : ∀ index, (system.threads index).Sound plan) (rested : system.Rested plan links)
    (sizes : ∀ index, (system.threads index).rank.slots.size = count) (reason : Termination)
    {id : ComponentId} {seat : Seat C} (there : (Pool.ofRanks (List.ofFn first)).seats id = some seat) :
    ∃ final, seat.follow? links (.setup id :: (system.told links id).map .event) =
        some (final, system.gave links id) ∧
      (Report.ofRanks reason (List.ofFn fun index => (system.threads index).rank)).components[id]? =
        some (final.slot.name, final.slot.component) := by
  obtain ⟨index, here⟩ := (Pool.seats_ofRanks housing.apart id seat).mp there
  obtain ⟨called, final, -, begun, now, follows⟩ := kept.story housing (sound index) here
  rw [begun (rested.going index).1] at follows
  obtain ⟨slot, owned, place⟩ := Option.map_eq_some_iff.mp (now (rested.going index).2)
  refine ⟨final, follows, ?_⟩
  rw [← place]
  exact Report.getElem?_components (List.forall_mem_ofFn_iff.mpr sizes)
    (kept.owned_of_rested housing sound rested) (kept.apart_of_rested housing sound rested)
    (List.mem_ofFn.mpr ⟨index, rfl⟩) owned

omit [Component C] in
/-- What ranks count on a way, its ends gave and were told. -/
theorem flowOf_told (way : Way) :
    flowOf ((List.finRange n).flatMap fun index => postedOf links (system.threads index).history)
        ((List.finRange n).flatMap fun index => takenOf (system.threads index).history) way =
      ⟨((system.gave links (way.near links).component).filter way.bears).length,
        ((system.told links (way.far links).component).filter way.bears).length⟩ := by
  rw [flowOf, gave, told, filter_comesFrom, filter_goesTo, List.countP_eq_length_filter,
    List.countP_eq_length_filter]

/-- A report about ranks that have started and not ended sums up what their components did. -/
theorem Kept.sums (kept : system.Kept plan links first)
    (housing : Housing links plan.ids count first)
    (sound : ∀ index, (system.threads index).Sound plan) (rested : system.Rested plan links)
    (reports : ∀ index, (system.threads index).rank.Reports (system.threads index).history)
    (sizes : ∀ index, (system.threads index).rank.slots.size = count) (some : 0 < n)
    (reason : Termination) :
    (Report.ofRanks reason (List.ofFn fun index => (system.threads index).rank)).Sums links count
      (Pool.ofRanks (List.ofFn first)).seats (system.told links) (system.gave links) := by
  have links_eq : (Report.ofRanks reason (List.ofFn fun index => (system.threads index).rank)).links =
      tallied links (flowOf
        ((List.finRange n).flatMap fun index => postedOf links (system.threads index).history)
        ((List.finRange n).flatMap fun index => takenOf (system.threads index).history)) :=
    Pool.traffic_ofRanks some kept.counted
  refine ⟨?_, fun id entry inside => ?_, ?_, ?_, fun way known => ?_,
    Report.length_components_eq (List.forall_mem_ofFn_iff.mpr sizes)
      (kept.owned_of_rested housing sound rested) (kept.apart_of_rested housing sound rested),
    fun id seat there => kept.states_of_rested housing sound rested sizes reason there,
    fun closed => ?_⟩
  · rw [Report.events_ofRanks, List.map_ofFn, List.sum_ofFn,
      ← kept.flowing.addressed.length_taken housing]
    exact Finset.sum_congr rfl fun index _ => (reports index).count
  · obtain ⟨index, -, taken⟩ := List.mem_flatMap.mp (List.mem_filter.mp inside).1
    exact le_trans (kept.le_latest (reports index) taken)
      (Report.lastTime_le_endTime reason (List.mem_ofFn.mpr ⟨index, rfl⟩))
  · rcases List.mem_cons.mp (Report.endTime_mem reason
      (List.ofFn fun index => (system.threads index).rank)) with zero | inside
    · exact Or.inl zero
    · obtain ⟨rank, among, last⟩ := List.mem_map.mp inside
      obtain ⟨index, rfl⟩ := List.mem_ofFn.mp among
      rw [← last]
      rcases (reports index).latest_mem with zero | ⟨entry, taken, due⟩
      · exact Or.inl zero
      · exact Or.inr ⟨_, entry, mem_told taken, due⟩
  · rw [links_eq, tallied, List.length_mapIdx, Array.length_toList]
  · rw [links_eq, ← flowOf_told]
    exact exists_leaving_tallied known
  · intro rank inside
    obtain ⟨other, among, rfl⟩ := List.mem_map.mp inside
    obtain ⟨index, rfl⟩ := List.mem_ofFn.mp among
    change (system.threads index).rank.pending.size = 0
    rw [EventSet.size_eq_length, kept.pending_of_closed housing rested closed index,
      List.length_nil]

end System

end Hooks

end Rally
