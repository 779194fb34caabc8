import Rally.Proofs.Pool.MergedVisits
/-!
# Merged visits are a legal run

The visits of an ensemble are made around its pool one after the other: first all setups, in the
order of registration, then the events, in the order of the merged calls. Each event is the oldest of
its way that waits in the pool, and none that waits is due before it.
-/

namespace Rally

variable {C : Type} [Component C] {n : Nat}

namespace Ensemble

variable {ensemble : Ensemble C n} {former rest : Fin n → List Visit} {pool : Pool C}

/-- How far an ensemble has come: each rank has made its former visits, and the pool is as these have
left it. -/
structure Progress (ensemble : Ensemble C n) (former rest : Fin n → List Visit) (pool : Pool C) :
    Prop where
  /-- The other visits are still to be made. -/
  split : ∀ index, ensemble.visits index = former index ++ rest index
  /-- They lead from the components in the pool to the last ones. -/
  stage : ∃ seats, (∀ index, Path ensemble.links (seats index) (rest index) (ensemble.last index)) ∧
    ensemble.Stage (fun index => postedBy ensemble.links (former index))
      (fun index => takenBy (former index)) seats pool

/-- What is told of the visits of each rank, where one of the ranks makes one more. -/
theorem told_update {α : Type} (tell : List Visit → List α)
    (append : ∀ visits more, tell (visits ++ more) = tell visits ++ tell more)
    (former : Fin n → List Visit) (index : Fin n) (visit : Visit) :
    Function.update (fun place => tell (former place)) index (tell (former index) ++ tell [visit]) =
      fun place => tell (Function.update former index (former index ++ [visit]) place) := by
  funext place
  by_cases here : place = index
  · rw [here, Function.update_self, Function.update_self, append]
  · rw [Function.update_of_ne here, Function.update_of_ne here]

/-- One of the visits to be made is made. -/
theorem split_update {visits former rest : Fin n → List Visit}
    (split : ∀ index, visits index = former index ++ rest index) {index : Fin n} {visit : Visit}
    {more : List Visit} (next : rest index = visit :: more) (place : Fin n) :
    visits place = Function.update former index (former index ++ [visit]) place ++
      Function.update rest index more place := by
  by_cases here : place = index
  · rw [here, Function.update_self, Function.update_self, split, next, List.append_assoc]
    rfl
  · rw [Function.update_of_ne here, Function.update_of_ne here]
    exact split place

/-- A rank makes its next visit, where the pool is ready for it. -/
theorem Progress.visit {before : Pool C} {took : Fin n → List (Instant × Delivery)} {index : Fin n}
    {visit : Visit} {more : List Visit} {seats : Fin n → Seats C}
    (split : ∀ index, ensemble.visits index = former index ++ rest index)
    (paths : ∀ index, Path ensemble.links (seats index) (rest index) (ensemble.last index))
    (ready : ensemble.Stage (fun index => postedBy ensemble.links (former index)) took seats before)
    (next : rest index = visit :: more)
    (taken : took = fun place =>
      takenBy (Function.update former index (former index ++ [visit]) place)) :
    ∃ last, before.call? visit.cause = some last ∧
      ensemble.Progress (Function.update former index (former index ++ [visit]))
        (Function.update rest index more) last := by
  have path := paths index
  rw [next] at path
  cases path with
  | @step _ middle _ _ _ leads onward =>
    have inside : visit ∈ ensemble.visits index := by
      rw [split, next]
      exact List.mem_append_right _ List.mem_cons_self
    have sited : ∀ entry ∈ visit.posted ensemble.links,
        (Way.near ⟨entry.2.link, entry.2.arrival.opposite⟩ ensemble.links).rank =
          ensemble.ids index := fun entry there =>
      (ensemble.posted index entry (List.mem_flatMap.mpr ⟨visit, inside, there⟩)).2
    obtain ⟨last, called, stage⟩ := ready.call leads sited
    refine ⟨last, called, split_update split next, Function.update seats index middle,
      fun place => ?_, ?_⟩
    · by_cases here : place = index
      · rw [here, Function.update_self, Function.update_self]
        exact onward
      · rw [Function.update_of_ne here, Function.update_of_ne here]
        exact paths place
    · rw [taken] at stage
      have gave := told_update (postedBy ensemble.links) (postedBy_append ensemble.links) former
        index visit
      rw [postedBy_singleton] at gave
      rw [gave] at stage
      exact stage

/-- The next visit of a rank is the setup of a component. -/
theorem Progress.setup (progress : ensemble.Progress former rest pool) {index : Fin n}
    {visit : Visit} {more : List Visit} (next : rest index = visit :: more) {id : ComponentId}
    (cause : visit.cause = .setup id) :
    ∃ last, pool.call? (.setup id) = some last ∧
      ensemble.Progress (Function.update former index (former index ++ [visit]))
        (Function.update rest index more) last := by
  obtain ⟨split, seats, paths, stage⟩ := progress
  rw [← cause]
  refine Progress.visit split paths stage next ?_
  have took := told_update takenBy takenBy_append former index visit
  rw [takenBy_singleton, cause, Cause.taken, List.append_nil, Function.update_eq_self] at took
  exact took

/-- What is posted for another rank in an event that is not due before an instant is due later. -/
theorem late_of_posted {links : Array Link} {visits : List Visit} {now : Instant}
    (short : now < Instant.max)
    (later : ∀ visit ∈ visits, ∃ entry, visit.cause = .event entry ∧ now ≤ entry.1)
    {way : Way} (positive : Duration.zero < way.latency links) :
    ∀ entry ∈ (postedBy links visits).filter way.bears, now < entry.1 := by
  intro entry inside
  obtain ⟨posted, goes⟩ := List.mem_filter.mp inside
  obtain ⟨visit, there, posted⟩ := List.mem_flatMap.mp posted
  obtain ⟨sent, -, rfl⟩ := List.mem_map.mp posted
  obtain ⟨event, cause, due⟩ := later visit there
  obtain rfl := (way.bears_post links).mp goes
  have onward : now.saturatingAdd (sent.1.latency links) ≤
      visit.cause.now.saturatingAdd (sent.1.latency links) := by
    rw [cause]
    exact Duration.saturatingAdd_le_saturatingAdd due (le_refl _)
  exact lt_of_lt_of_le (Duration.lt_saturatingAdd positive short) onward

/-- Of two lists with a common continuation, a member behind the first one is among the second one
where the latter reaches it. -/
theorem mem_of_reached {α : Type} {took rest gave more : List α} {entry : α}
    (same : took ++ entry :: rest = gave ++ more) (out : entry ∉ more) :
    took ++ [entry] <+: gave := by
  rcases List.append_eq_append_iff.mp same with ⟨middle, gave_eq, rest_eq⟩ | ⟨middle, took_eq, more_eq⟩
  · cases middle with
    | nil =>
      rw [List.nil_append] at rest_eq
      exact absurd (rest_eq ▸ List.mem_cons_self) out
    | cons first others =>
      obtain ⟨rfl, -⟩ := List.cons.inj rest_eq
      exact ⟨others, by rw [gave_eq, List.append_assoc]; rfl⟩
  · exact absurd (more_eq ▸ List.mem_append_right _ List.mem_cons_self) out

/-- The next event of a rank was posted before, where no rank is to handle an earlier one. -/
theorem Progress.posted_before (progress : ensemble.Progress former rest pool) {index : Fin n}
    {visit : Visit} {more : List Visit} (next : rest index = visit :: more)
    {entry : Instant × Delivery} (cause : visit.cause = .event entry)
    (first : ∀ place, ∀ other ∈ rest place, ∃ event, other.cause = .event event ∧
      entry.1 ≤ event.1) {way : Way} (goes : way.bears entry = true) {near : Fin n}
    (source : ensemble.ids near = (way.near ensemble.links).rank)
    (goal : ensemble.ids index = (way.far ensemble.links).rank) :
    (takenBy (former index)).filter way.bears ++ [entry] <+:
      (postedBy ensemble.links (former near)).filter way.bears := by
  have split := progress.split
  have taken : takenBy (ensemble.visits index) =
      takenBy (former index) ++ entry :: takenBy more := by
    rw [split, next, takenBy_append]
    exact congrArg (takenBy (former index) ++ ·) (congrArg (· ++ takenBy more)
      (congrArg Cause.taken cause))
  by_cases here : near = index
  · subst here
    have causal := ensemble.causal near (former near) visit more entry
      (by rw [split, next]) cause way source.symm goal.symm
    rwa [List.filter_append, List.filter_singleton, goes, cond_true] at causal
  · -- A message to another rank takes some time, so it was sent in an earlier event.
    have inside : entry ∈ takenBy (ensemble.visits index) := by
      rw [taken]
      exact List.mem_append_right _ List.mem_cons_self
    have apart : (way.near ensemble.links).rank ≠ (way.far ensemble.links).rank := by
      rw [← source, ← goal]
      exact fun same => here (ensemble.distinct same)
    have known : way.link < ensemble.links.size := by
      rw [way.bears_iff.mp goes]
      exact (ensemble.taken index entry inside).known
    have short : entry.1 < Instant.max :=
      lt_of_lt_of_le (ensemble.early index entry inside) (Duration.le_max _)
    have late := late_of_posted short (first near) (ensemble.positive way known apart)
    have whole := ensemble.conserved way near index source goal
    rw [taken, split near, postedBy_append, List.filter_append, List.filter_append,
      List.filter_cons_of_pos goes, List.filter_append, List.append_assoc, List.cons_append] at whole
    exact mem_of_reached whole fun inside => lt_irrefl _ (late entry inside)

/-- What waits in the pool is due no earlier than what any rank is to handle first. -/
theorem Progress.least (progress : ensemble.Progress former rest pool)
    {now : Instant} (bound : now ≤ ensemble.bound)
    (first : ∀ place, ∀ other ∈ rest place, ∃ event, other.cause = .event event ∧
      now ≤ event.1) : ∀ entry ∈ pool.waiting, now ≤ entry.1 := by
  intro entry inside
  obtain ⟨split, seats, -, stage⟩ := progress
  obtain ⟨source, gave⟩ := stage.known entry inside
  have given : entry ∈ postedBy ensemble.links (ensemble.visits source) := by
    rw [split, postedBy_append]
    exact List.mem_append_left _ gave
  obtain ⟨known, place⟩ := ensemble.posted source entry given
  let way : Way := ⟨entry.2.link, entry.2.arrival.opposite⟩
  have goes : way.bears entry = true := way.bears_iff.mpr rfl
  obtain ⟨-, far, goal⟩ := ensemble.placed way known
  have waits := stage.waiting way source far place.symm goal
  have whole := ensemble.conserved way source far place.symm goal
  have split_far : (takenBy (former far)).filter way.bears ++
      (takenBy (rest far) ++ ensemble.remains far).filter way.bears =
        (takenBy (former far)).filter way.bears ++ (pool.waiting.filter way.bears ++
          (postedBy ensemble.links (rest source)).filter way.bears) := by
    rw [← List.append_assoc, waits, ← List.filter_append, ← List.filter_append,
      ← List.append_assoc, ← takenBy_append, ← split far, whole, split source, postedBy_append]
  have there : entry ∈ takenBy (rest far) ++ ensemble.remains far := by
    refine List.mem_of_mem_filter (p := way.bears) ?_
    rw [List.append_cancel_left split_far]
    exact List.mem_append_left _ (List.mem_filter.mpr ⟨inside, goes⟩)
  rcases List.mem_append.mp there with handled | remains
  · obtain ⟨other, later, taken⟩ := List.mem_flatMap.mp handled
    obtain ⟨event, cause, due⟩ := first far other later
    rw [cause, Cause.taken, List.mem_singleton] at taken
    rw [taken]
    exact due
  · exact le_trans bound (ensemble.late far entry remains)

/-- The next visit of a rank is the handling of an event, where no rank is to handle an earlier
one. -/
theorem Progress.event (progress : ensemble.Progress former rest pool) {index : Fin n}
    {visit : Visit} {more : List Visit} (next : rest index = visit :: more)
    {entry : Instant × Delivery} (cause : visit.cause = .event entry)
    (first : ∀ place, ∀ other ∈ rest place, ∃ event, other.cause = .event event ∧
      entry.1 ≤ event.1) :
    ∃ last, pool.Steps entry last ∧
      ensemble.Progress (Function.update former index (former index ++ [visit]))
        (Function.update rest index more) last := by
  have inside : entry ∈ takenBy (ensemble.visits index) := by
    rw [progress.split, next]
    refine List.mem_flatMap.mpr ⟨visit, List.mem_append_right _ List.mem_cons_self, ?_⟩
    rw [cause]
    exact List.mem_singleton_self _
  have isFor := ensemble.taken index entry inside
  let way : Way := ⟨entry.2.link, entry.2.arrival.opposite⟩
  have goes : way.bears entry = true := way.bears_iff.mpr rfl
  have goal : ensemble.ids index = (way.far ensemble.links).rank := by
    rw [Way.far, Side.opposite_opposite]
    exact isFor.here.symm
  obtain ⟨⟨near, source⟩, -⟩ := ensemble.placed way isFor.known
  have posted := progress.posted_before next cause first goes source goal
  have least := progress.least (le_of_lt (ensemble.early index entry inside)) first
  obtain ⟨split, seats, paths, stage⟩ := progress
  have waits := stage.waiting way near index source goal
  obtain ⟨others, waits⟩ : ∃ others, pool.waiting.filter way.bears = entry :: others := by
    obtain ⟨others, whole⟩ := posted
    rw [← whole, List.append_assoc] at waits
    exact ⟨others, List.append_cancel_left waits⟩
  obtain ⟨before, after, waiting, oldest, -, -⟩ := List.filter_eq_cons_iff.mp waits
  have taken := stage.take waiting isFor oldest
  have took := told_update takenBy takenBy_append former index visit
  rw [takenBy_singleton, cause, Cause.taken] at took
  obtain ⟨last, called, progress⟩ := Progress.visit split paths taken next took
  rw [cause] at called
  refine ⟨last, .handed before after waiting least (fun other there same => ?_) called, progress⟩
  refine oldest other there (way.bears_iff.mpr ?_)
  rw [same.1, same.2]

/-- Before the first visit everything is as it was. -/
theorem progress_first (seated : ∀ id seat, pool.seats id = some seat ↔
      ∃ index, ensemble.first index id = some seat) (links : pool.links = ensemble.links)
    (waiting : pool.waiting = [])
    (traffic : pool.traffic = tallied ensemble.links (flowOf [] [])) :
    ensemble.Progress (fun _ => []) ensemble.visits pool := by
  have none : (List.finRange n).flatMap (fun _ => ([] : List (Instant × Delivery))) = [] :=
    List.flatMap_eq_nil_iff.mpr fun _ _ => rfl
  refine ⟨fun index => rfl, ensemble.first, ensemble.path, seated, fun index id => rfl, links,
    fun way near far _ _ => ?_, fun entry inside => ?_, ?_⟩
  · rw [waiting]
    rfl
  · rw [waiting] at inside
    cases inside
  · rw [traffic]
    exact congrArg (tallied ensemble.links) (congrArg₂ flowOf none.symm none.symm)

/-- All components that are left are set up. -/
theorem Progress.setupAll (ids : List ComponentId) (among : ∀ id ∈ ids, id < ensemble.count)
    {events : Fin n → List Cause} (progress : ensemble.Progress former rest pool)
    (causes : ∀ index, (rest index).map Visit.cause =
      setupsOf (ensemble.first index) ids ++ events index) :
    ∃ (begun : Pool C) (former rest : Fin n → List Visit), pool.setupAll? ids = some begun ∧
      ensemble.Progress former rest begun ∧
      ∀ index, (rest index).map Visit.cause = events index := by
  induction ids generalizing former rest pool with
  | nil => exact ⟨pool, former, rest, rfl, progress, causes⟩
  | cons id ids ih =>
    obtain ⟨index, owned⟩ := ensemble.owned id (among id List.mem_cons_self)
    have mine : setupsOf (ensemble.first index) (id :: ids) =
        .setup id :: setupsOf (ensemble.first index) ids := by
      rw [setupsOf, List.filter_cons_of_pos (p := fun id => (ensemble.first index id).isSome) owned]
      rfl
    have here := causes index
    rw [mine, List.cons_append] at here
    obtain ⟨visit, more, next, cause, behind⟩ := List.map_eq_cons_iff.mp here
    obtain ⟨last, called, onward⟩ := progress.setup next cause
    obtain ⟨begun, former, rest, runs, ended⟩ :=
      ih (fun id inside => among id (List.mem_cons_of_mem _ inside)) onward fun place => by
        by_cases same : place = index
        · rw [same, Function.update_self, behind]
        · have other : ¬ (ensemble.first place id).isSome :=
            fun there => same (ensemble.apart place index id there owned)
          rw [Function.update_of_ne same, causes, setupsOf,
            List.filter_cons_of_neg (p := fun id => (ensemble.first place id).isSome) other]
          rfl
    refine ⟨begun, former, rest, ?_, ended⟩
    rw [Pool.setupAll?, List.foldlM_cons, called]
    exact runs

/-- All events that are left are handled in the order of their calls. -/
theorem Progress.run (calls : List Call) (progress : ensemble.Progress former rest pool)
    (ordered : calls.Pairwise fun x y => x.entry.1 ≤ y.entry.1)
    (placed : ∀ call ∈ calls, ∃ index, call.rank = ensemble.ids index)
    (causes : ∀ index, (rest index).map Visit.cause =
      ((calls.filter fun call => call.rank == ensemble.ids index).map Call.entry).map .event) :
    ∃ last, pool.Runs (calls.map Call.entry) last ∧
      ensemble.Progress ensemble.visits (fun _ => []) last := by
  induction calls generalizing former rest pool with
  | nil =>
    have done : rest = fun _ => [] := funext fun index => List.map_eq_nil_iff.mp (causes index)
    have all : former = ensemble.visits := funext fun index => by
      rw [progress.split, done, List.append_nil]
    rw [all, done] at progress
    exact ⟨pool, .refl pool, progress⟩
  | cons call calls ih =>
    obtain ⟨index, own⟩ := placed call List.mem_cons_self
    have mine := causes index
    rw [List.filter_cons_of_pos (p := fun call : Call => call.rank == ensemble.ids index)
      (beq_iff_eq.mpr own), List.map_cons, List.map_cons] at mine
    obtain ⟨visit, more, next, cause, behind⟩ := List.map_eq_cons_iff.mp mine
    obtain ⟨earliest, ordered⟩ := List.pairwise_cons.mp ordered
    have first : ∀ place, ∀ other ∈ rest place, ∃ event, other.cause = .event event ∧
        call.entry.1 ≤ event.1 := by
      intro place other there
      have told := List.mem_map_of_mem (f := Visit.cause) there
      rw [causes place] at told
      obtain ⟨event, inside, same⟩ := List.mem_map.mp told
      refine ⟨event, same.symm, ?_⟩
      obtain ⟨later, called, rfl⟩ := List.mem_map.mp inside
      rcases List.mem_cons.mp (List.mem_of_mem_filter called) with rfl | inside
      · exact le_refl _
      · exact earliest later inside
    obtain ⟨middle, steps, onward⟩ := progress.event next cause first
    obtain ⟨last, runs, ended⟩ := ih onward ordered
      (fun other inside => placed other (List.mem_cons_of_mem _ inside)) fun place => by
        by_cases same : place = index
        · rw [same, Function.update_self, behind]
        · have other : ¬ (call.rank == ensemble.ids place) = true := by
            rw [beq_iff_eq, own]
            exact fun equal => same (ensemble.distinct equal).symm
          rw [Function.update_of_ne same, causes,
            List.filter_cons_of_neg (p := fun call : Call => call.rank == ensemble.ids place) other]
    exact ⟨last, .step steps runs, ended⟩

/-- Two lists of messages have the same members where they have the same on each way. -/
theorem perm_of_ways {former latter : List (Instant × Delivery)}
    (same : ∀ way : Way, former.filter way.bears = latter.filter way.bears) :
    former.Perm latter := by
  rw [List.perm_iff_count]
  intro entry
  have goes : Way.bears ⟨entry.2.link, entry.2.arrival.opposite⟩ entry = true :=
    (Way.bears_iff _).mpr rfl
  rw [← List.count_filter goes, same, List.count_filter goes]

/-- The merged visits of an ensemble are a legal run around its pool, from its first components to
its last ones. -/
theorem legal (ensemble : Ensemble C n) {behind : Pool C}
    (seated : ∀ id seat, pool.seats id = some seat ↔
      ∃ index, ensemble.first index id = some seat) (links : pool.links = ensemble.links)
    (waiting : pool.waiting = [])
    (traffic : pool.traffic = tallied ensemble.links (flowOf [] []))
    (seatedToo : ∀ id seat, behind.seats id = some seat ↔
      ∃ index, ensemble.last index id = some seat) (linksToo : behind.links = ensemble.links)
    (remains : behind.waiting = (List.finRange n).flatMap ensemble.remains)
    (trafficToo : behind.traffic = tallied ensemble.links (flowOf
      ((List.finRange n).flatMap fun index => postedBy ensemble.links (ensemble.visits index))
      ((List.finRange n).flatMap fun index => takenBy (ensemble.visits index)))) :
    ∃ begun last, pool.setupAll? (List.range ensemble.count) = some begun ∧
      begun.Runs ((mergedCalls ensemble.ids fun index =>
        takenBy (ensemble.visits index)).map Call.entry) last ∧ last.Alike behind := by
  have progress := progress_first seated links waiting traffic
  obtain ⟨begun, former, rest, setups, progress, causes⟩ :=
    progress.setupAll (List.range ensemble.count) (fun id => List.mem_range.mp) ensemble.begun
  obtain ⟨last, runs, progress⟩ := progress.run
    (mergedCalls ensemble.ids fun index => takenBy (ensemble.visits index))
    ascending_mergedCalls (fun call => rank_of_mem_mergedCalls) fun index => by
      rw [causes, filter_mergedCalls ensemble.distinct ensemble.ascending]
  obtain ⟨-, seats, paths, stage⟩ := progress
  obtain rfl : seats = ensemble.last := funext fun index => (paths index).eq_of_nil
  have lines (way : Way) : last.waiting.filter way.bears = behind.waiting.filter way.bears := by
    rw [remains, List.filter_flatMap]
    by_cases known : way.link < ensemble.links.size
    · obtain ⟨⟨near, source⟩, far, goal⟩ := ensemble.placed way known
      have waits := stage.waiting way near far source goal
      rw [← ensemble.conserved way near far source goal, List.filter_append] at waits
      rw [List.append_cancel_left waits]
      refine (flatMap_eq_of_alone (f := fun index => (ensemble.remains index).filter way.bears)
        (List.nodup_finRange n) (List.mem_finRange far) ?_).symm
      intro other _ differ
      refine List.filter_eq_nil_iff.mpr fun entry inside goes => differ (ensemble.distinct ?_)
      rw [← (ensemble.held other entry inside).here, goal, way.bears_iff.mp goes, Way.far,
        Side.opposite_opposite]
    · have unknown (entry : Instant × Delivery) (there : entry.2.link < ensemble.links.size) :
          ¬ way.bears entry = true := fun goes => by
        rw [way.bears_iff.mp goes] at known
        exact known there
      rw [List.filter_eq_nil_iff.mpr, List.flatMap_eq_nil_iff.mpr]
      · intro index _
        exact List.filter_eq_nil_iff.mpr fun entry inside =>
          unknown entry (ensemble.held index entry inside).known
      · intro entry inside
        obtain ⟨index, gave⟩ := stage.known entry inside
        exact unknown entry (ensemble.posted index entry gave).1
  refine ⟨begun, last, setups, runs, ?_, stage.links.trans linksToo.symm,
    stage.traffic.trans trafficToo.symm, perm_of_ways lines, lines⟩
  funext id
  refine Option.ext fun seat => ?_
  exact (stage.seated id seat).trans (seatedToo id seat).symm

end Ensemble

end Rally
