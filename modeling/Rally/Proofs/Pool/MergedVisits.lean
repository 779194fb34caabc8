import Rally.Proofs.Pool.HistoryVisits
import Rally.Proofs.Pool.LinkCounters
import Rally.Proofs.Pool.MergedCalls
/-!
# Ranks around one pool

The visits of several ranks, merged by time, are a run around one pool. On each way the pool holds
what was posted and not yet taken. The next event of a rank is the first of its way in the pool: at
its far end it comes next, and whatever was posted before it was posted in time, since a message to
another rank takes some time, and one to the same rank was posted before. No other message in the
pool is due earlier: it is taken later, or remains behind the last window.
-/

namespace Rally

/-- What ranks did, as visits, and what holds of it. -/
structure Ensemble (C : Type) [Component C] (n : Nat) where
  /-- The links. -/
  links : Array Link
  /-- The numbers of the ranks. -/
  ids : Fin n → RankId
  /-- The number of components. -/
  count : Nat
  /-- The components of each rank in front of its visits. -/
  first : Fin n → Seats C
  /-- The visits on each rank. -/
  visits : Fin n → List Visit
  /-- The components of each rank behind its visits. -/
  last : Fin n → Seats C
  /-- What is posted for each rank and not taken. -/
  remains : Fin n → List (Instant × Delivery)
  /-- An instant up to which everything is taken. -/
  bound : Instant
  /-- Ranks have different numbers. -/
  distinct : Function.Injective ids
  /-- No component is on two ranks. -/
  apart : ∀ index other id, (first index id).isSome → (first other id).isSome → index = other
  /-- Every component is on some rank. -/
  owned : ∀ id < count, ∃ index, (first index id).isSome
  /-- The visits lead from the first components to the last ones. -/
  path : ∀ index, Path links (first index) (visits index) (last index)
  /-- Setups come first. -/
  begun : ∀ index, (visits index).map Visit.cause =
    setupsOf (first index) (List.range count) ++ (takenBy (visits index)).map .event
  /-- Both ends of a link are on ranks. -/
  placed : ∀ way : Way, way.link < links.size →
    (∃ near, ids near = (way.near links).rank) ∧ ∃ far, ids far = (way.far links).rank
  /-- A message to another rank takes some time. -/
  positive : ∀ way : Way, way.link < links.size →
    (way.near links).rank ≠ (way.far links).rank → Duration.zero < way.latency links
  /-- A rank posts at the near ends of ways. -/
  posted : ∀ index, ∀ entry ∈ postedBy links (visits index), entry.2.link < links.size ∧
    (Way.near ⟨entry.2.link, entry.2.arrival.opposite⟩ links).rank = ids index
  /-- It takes at their far ends. -/
  taken : ∀ index, ∀ entry ∈ takenBy (visits index), entry.2.IsFor links (ids index)
  /-- What remains waits there. -/
  held : ∀ index, ∀ entry ∈ remains index, entry.2.IsFor links (ids index)
  /-- On each way everything that is posted is taken or remains, in this order. -/
  conserved : ∀ (way : Way) near far, ids near = (way.near links).rank →
    ids far = (way.far links).rank →
      (takenBy (visits far) ++ remains far).filter way.bears =
        (postedBy links (visits near)).filter way.bears
  /-- On one rank, what is taken was posted before. -/
  causal : ∀ index, CausalIn links (ids index) (visits index)
  /-- Each rank takes in the order of time. -/
  ascending : ∀ index, (takenBy (visits index)).Pairwise fun x y => x.1 ≤ y.1
  /-- What is taken is due before the bound. -/
  early : ∀ index, ∀ entry ∈ takenBy (visits index), entry.1 < bound
  /-- What remains is not. -/
  late : ∀ index, ∀ entry ∈ remains index, bound ≤ entry.1

/-- Behind a change of one member, the members of a family tell more. -/
theorem perm_flatMap_update {α : Type} {n : Nat} (family : Fin n → List α) (index : Fin n)
    (more : List α) :
    ((List.finRange n).flatMap (Function.update family index (family index ++ more))).Perm
      ((List.finRange n).flatMap family ++ more) := by
  have among : ∀ members : List (Fin n), members.Nodup → index ∈ members →
      (members.flatMap (Function.update family index (family index ++ more))).Perm
        (members.flatMap family ++ more) := by
    intro members nodup inside
    induction members with
    | nil => cases inside
    | cons first rest ih =>
      obtain ⟨fresh, nodup⟩ := List.nodup_cons.mp nodup
      rw [List.flatMap_cons, List.flatMap_cons]
      by_cases same : first = index
      · subst same
        have others : rest.flatMap (Function.update family first (family first ++ more)) =
            rest.flatMap family :=
          List.flatMap_congr fun other there =>
            Function.update_of_ne (ne_of_mem_of_not_mem there fresh) _ _
        rw [Function.update_self, others, List.append_assoc, List.append_assoc]
        exact List.perm_append_comm.append_left _
      · rw [Function.update_of_ne same, List.append_assoc]
        exact (ih nodup ((List.mem_cons.mp inside).resolve_left (Ne.symm same))).append_left _
  exact among _ (List.nodup_finRange n) (List.mem_finRange index)

/-- What visits are called for is told by their causes. -/
theorem takenBy_eq (visits : List Visit) :
    takenBy visits = (visits.map Visit.cause).flatMap Cause.taken := by
  rw [List.flatMap_map]
  rfl

/-- Behind setups the events of a rank are what it takes. -/
theorem flatMap_taken {C : Type} (seats : Seats C) (ids : List ComponentId)
    (entries : List (Instant × Delivery)) :
    (setupsOf seats ids ++ entries.map Cause.event).flatMap Cause.taken = entries := by
  have none : (setupsOf seats ids).flatMap Cause.taken = [] := by
    rw [setupsOf, List.flatMap_map]
    exact List.flatMap_eq_nil_iff.mpr fun _ _ => rfl
  rw [List.flatMap_append, none, List.nil_append, List.flatMap_map]
  exact List.flatMap_singleton' _

variable {C : Type} [Component C] {n : Nat}

namespace Ensemble

variable (ensemble : Ensemble C n)

/-- A pool as far as ranks have posted and taken messages. -/
structure Stage (gave took : Fin n → List (Instant × Delivery)) (seats : Fin n → Seats C)
    (pool : Pool C) : Prop where
  /-- The components are those of all ranks. -/
  seated : ∀ id seat, pool.seats id = some seat ↔ ∃ index, seats index id = some seat
  /-- They are where they were. -/
  owned : ∀ index id, (seats index id).isSome = (ensemble.first index id).isSome
  /-- The links are known. -/
  links : pool.links = ensemble.links
  /-- On each way, what was posted was taken or waits. -/
  waiting : ∀ (way : Way) near far, ensemble.ids near = (way.near ensemble.links).rank →
    ensemble.ids far = (way.far ensemble.links).rank →
      (took far).filter way.bears ++ pool.waiting.filter way.bears = (gave near).filter way.bears
  /-- What waits was posted. -/
  known : ∀ entry ∈ pool.waiting, ∃ index, entry ∈ gave index
  /-- Everything is counted. -/
  traffic : pool.traffic = tallied ensemble.links
    (flowOf ((List.finRange n).flatMap gave) ((List.finRange n).flatMap took))

variable {ensemble} {gave took : Fin n → List (Instant × Delivery)} {seats : Fin n → Seats C}
  {pool : Pool C}

/-- A message that is the first of its way is taken out of the pool. -/
theorem Stage.take (stage : ensemble.Stage gave took seats pool) {index : Fin n}
    {entry : Instant × Delivery} {before after : List (Instant × Delivery)}
    (waiting : pool.waiting = before ++ entry :: after)
    (goal : entry.2.IsFor ensemble.links (ensemble.ids index))
    (oldest : ∀ other ∈ before, ¬ Way.bears ⟨entry.2.link, entry.2.arrival.opposite⟩ other) :
    ensemble.Stage gave (Function.update took index (took index ++ [entry])) seats
      (pool.take entry (before ++ after)) := by
  refine ⟨stage.seated, stage.owned, stage.links, fun way near far source target => ?_,
    fun other inside => stage.known other ?_, ?_⟩
  · have whole := stage.waiting way near far source target
    rw [waiting, List.filter_append] at whole
    change (Function.update took index (took index ++ [entry]) far).filter way.bears ++
      (before ++ after).filter way.bears = _
    rw [List.filter_append]
    by_cases goes : way.bears entry = true
    · -- Its way leads to the rank that takes it.
      obtain rfl := way.bears_iff.mp goes
      have same : far = index := by
        refine ensemble.distinct (target.trans ?_)
        rw [← goal.here, Way.far, Side.opposite_opposite]
      have none : before.filter (Way.bears ⟨entry.2.link, entry.2.arrival.opposite⟩) = [] :=
        List.filter_eq_nil_iff.mpr oldest
      subst same
      rw [none, List.filter_cons_of_pos goes] at whole
      rw [Function.update_self, List.filter_append, List.filter_singleton, goes, none]
      simpa using whole
    · rw [List.filter_cons_of_neg goes] at whole
      by_cases same : far = index
      · subst same
        rw [Function.update_self, List.filter_append, List.filter_singleton,
          Bool.eq_false_iff.mpr goes]
        simpa using whole
      · rw [Function.update_of_ne same]
        exact whole
  · rw [waiting]
    rcases List.mem_append.mp inside with old | new
    · exact List.mem_append_left _ old
    · exact List.mem_append_right _ (List.mem_cons_of_mem _ new)
  · rw [Pool.take, stage.traffic]
    exact (deliver_tallied entry _ _).trans
      (congrArg _ (flowOf_perm (.refl _) (perm_flatMap_update took index [entry]).symm))

/-- Behind an answer of a component of a rank, the components are those of all ranks. -/
theorem Stage.seated_update (stage : ensemble.Stage gave took seats pool) {index : Fin n}
    {component : ComponentId} {seat : Seat C} (there : seats index component = some seat)
    (answer : Seat C) (id : ComponentId) (other : Seat C) :
    Function.update pool.seats component (some answer) id = some other ↔
      ∃ place, Function.update seats index
        (Function.update (seats index) component (some answer)) place id = some other := by
  by_cases here : id = component
  · rw [here, Function.update_self]
    refine ⟨fun same => ⟨index, ?_⟩, ?_⟩
    · rw [Function.update_self, Function.update_self]
      exact same
    · rintro ⟨place, found⟩
      by_cases own : place = index
      · rw [own, Function.update_self, Function.update_self] at found
        exact found
      · rw [Function.update_of_ne own] at found
        refine absurd (ensemble.apart place index component ?_ ?_) own
        · rw [← stage.owned, found]
          rfl
        · rw [← stage.owned, there]
          rfl
  · rw [Function.update_of_ne here, stage.seated]
    have still : ∀ place, Function.update seats index
        (Function.update (seats index) component (some answer)) place id = seats place id := by
      intro place
      by_cases own : place = index
      · rw [own, Function.update_self, Function.update_of_ne here]
      · rw [Function.update_of_ne own]
    exact exists_congr fun place => by rw [still]

/-- They are where they were. -/
theorem Stage.owned_update (stage : ensemble.Stage gave took seats pool) {index : Fin n}
    {component : ComponentId} {seat : Seat C} (there : seats index component = some seat)
    (answer : Seat C) (place : Fin n) (id : ComponentId) :
    (Function.update seats index (Function.update (seats index) component (some answer))
      place id).isSome = (ensemble.first place id).isSome := by
  rw [← stage.owned]
  by_cases own : place = index
  · rw [own, Function.update_self]
    by_cases here : id = component
    · rw [here, Function.update_self, there]
      rfl
    · rw [Function.update_of_ne here]
  · rw [Function.update_of_ne own]

/-- On each way, what a rank posts waits behind all that was posted before. -/
theorem Stage.waiting_append (stage : ensemble.Stage gave took seats pool) {index : Fin n}
    {entries : List (Instant × Delivery)}
    (posted : ∀ entry ∈ entries,
      (Way.near ⟨entry.2.link, entry.2.arrival.opposite⟩ ensemble.links).rank = ensemble.ids index)
    {way : Way} {near far : Fin n} (source : ensemble.ids near = (way.near ensemble.links).rank)
    (target : ensemble.ids far = (way.far ensemble.links).rank) :
    (took far).filter way.bears ++ (pool.waiting ++ entries).filter way.bears =
      (Function.update gave index (gave index ++ entries) near).filter way.bears := by
  rw [List.filter_append, ← List.append_assoc, stage.waiting way near far source target]
  by_cases own : near = index
  · rw [own, Function.update_self, List.filter_append]
  · have none : entries.filter way.bears = [] := by
      rw [List.filter_eq_nil_iff]
      intro entry inside goes
      have place := posted entry inside
      rw [← way.bears_iff.mp goes] at place
      exact own (ensemble.distinct (source.trans place))
    rw [Function.update_of_ne own, none, List.append_nil]

/-- All that waits then was posted. -/
theorem Stage.known_append (stage : ensemble.Stage gave took seats pool) (index : Fin n)
    {entries : List (Instant × Delivery)} {entry : Instant × Delivery}
    (inside : entry ∈ pool.waiting ++ entries) :
    ∃ place, entry ∈ Function.update gave index (gave index ++ entries) place := by
  rcases List.mem_append.mp inside with old | new
  · obtain ⟨place, there⟩ := stage.known entry old
    refine ⟨place, ?_⟩
    by_cases own : place = index
    · rw [own, Function.update_self]
      exact List.mem_append_left _ (own ▸ there)
    · rw [Function.update_of_ne own]
      exact there
  · exact ⟨index, by rw [Function.update_self]; exact List.mem_append_right _ new⟩

/-- A visit of a rank is a call around the pool. -/
theorem Stage.call (stage : ensemble.Stage gave took seats pool) {index : Fin n} {visit : Visit}
    {next : Seats C} (leads : visit.Leads ensemble.links (seats index) next)
    (posted : ∀ entry ∈ visit.posted ensemble.links,
      (Way.near ⟨entry.2.link, entry.2.arrival.opposite⟩ ensemble.links).rank =
        ensemble.ids index) :
    ∃ last, pool.call? visit.cause = some last ∧
      ensemble.Stage (Function.update gave index (gave index ++ visit.posted ensemble.links)) took
        (Function.update seats index next) last := by
  obtain ⟨there, answers⟩ := leads
  rename_i seat answer
  let component := visit.cause.component ensemble.links
  let seated : Pool C :=
    { pool with seats := Function.update pool.seats component (some answer) }
  obtain ⟨sameSeats, links, waiting, traffic⟩ :=
    @Pool.foldl_send ensemble.links C visit.cause.now visit.sends seated _ _ stage.links stage.traffic
  have found : pool.seats component = some seat := (stage.seated _ _).mpr ⟨index, there⟩
  refine ⟨visit.sends.foldl (Pool.send visit.cause.now) seated,
    Pool.call?_eq stage.links found answers, fun id other => ?_, stage.owned_update there answer, links,
    fun way near far source target => ?_, fun entry inside => ?_, ?_⟩
  · rw [sameSeats]
    exact stage.seated_update there answer id other
  · rw [waiting]
    exact stage.waiting_append posted source target
  · rw [waiting] at inside
    exact stage.known_append index inside
  · rw [traffic]
    exact congrArg _ (flowOf_perm (perm_flatMap_update gave index _).symm (.refl _))

end Ensemble

end Rally
