import Rally.Proofs.Threads.Refinement
/-!
# The start of the threads

The threads of a simulation that was built start in a regular state, with nothing on its way. One
after the other they call the setup hooks of their ranks, and are ready for the first window.
-/

namespace Rally

namespace Thread

variable {C : Type}

/-- A thread before its first step has all of its rank but the time. -/
theorem unsent_launch {rank : Rank C} (fresh : rank.outgoing = []) :
    (launch rank).unsent = [] := by
  simp only [unsent, launch, Thread.rank, fresh, List.reverse_nil]

/-- A thread behind its first steps, ready for its first window. -/
def readied [Component C] (rank : Rank C) : Thread C :=
  (launch rank).opened (Rank.setupAll (launch rank).positions (launch rank).rank)
    (Rank.setupAllDeeds (launch rank).positions (launch rank).rank)

/-- A thread behind its first steps has its rank as it starts in windows. -/
theorem readied_eq [Component C] (rank : Rank C) :
    readied rank =
      { worker := Worker.ofRank rank, phase := .opening, history := rank.startDeeds } := by
  have started : (launch rank).rank.setupAll (launch rank).positions = rank.start := rfl
  rw [readied, started, Worker.ofRank]
  generalize rank.start = called
  obtain ⟨last, halt⟩ := called
  cases halt <;> rfl

end Thread

namespace Simulation

variable {C : Type} {registry : Registry C} {options : Options} {topology : Topology}
  {clock : Instant} {journal : Journal} {simulation : Simulation C}

/-- Several threads are not alone. -/
theorem alone_plan (several : 2 ≤ simulation.ranks.length) : simulation.plan.alone = false :=
  decide_eq_false (by omega)

/-- The threads of a simulation know each other by different numbers. -/
theorem ids_injective (built : (build registry options topology clock journal).2 = .ok simulation) :
    Function.Injective simulation.plan.ids := by
  intro first second same
  have inside (index : Fin simulation.ranks.length) :
      index.val < (simulation.ranks.map Rank.id).length := by
    rw [List.length_map]
    exact index.isLt
  have insideFirst := inside first
  have insideSecond := inside second
  have alike : (simulation.ranks.map Rank.id)[first.val] =
      (simulation.ranks.map Rank.id)[second.val] := by
    rw [List.getElem_map, List.getElem_map]
    exact same
  exact Fin.ext ((distinct_of_build built).getElem_inj_iff.mp alike)

/-- No parcel is on its way before the threads of a simulation start. -/
theorem carried_launch
    (built : (build registry options topology clock journal).2 = .ok simulation)
    (filter : Filter) : (simulation.launch filter).Carried simulation.plan := by
  have unsent (index : Fin simulation.ranks.length) :
      ((simulation.launch filter).threads index).unsent = [] :=
    Thread.unsent_launch (fresh_of_build built (List.get_mem _ _)).outgoing
  have inbound (index : Fin simulation.ranks.length) :
      (simulation.launch filter).inbound index = [] := rfl
  refine ⟨fun index => rfl, ?_, ?_, ?_⟩
  · intro index parcel inside
    rw [unsent] at inside
    cases inside
  · intro index parcel inside
    rw [inbound] at inside
    cases inside
  · intro kind source target connects
    rw [System.Orderly, System.lane, inbound, unsent]
    exact ⟨.nil, fun parcel inside => by cases inside⟩

/-- The threads of a simulation start in a regular state. -/
theorem regular_launch
    (built : (build registry options topology clock journal).2 = .ok simulation)
    (several : 2 ≤ simulation.ranks.length) (filter : Filter) :
    (simulation.launch filter).Regular simulation.plan := by
  refine ⟨?_, ⟨[], ?_⟩, carried_launch built filter, ⟨fun index => rfl, ?_⟩⟩
  · exact System.lockstep_of_starting (by omega) ⟨rfl, rfl⟩ fun index => ⟨rfl, trivial⟩
  · exact System.recorded_of_starting rfl (fun index => trivial) fun index => ⟨rfl, rfl, rfl⟩
  · intro odd
    cases odd

variable [Component C]

/-- The threads of a simulation call their setup hooks in turn. -/
theorem reaches_opened
    (built : (build registry options topology clock journal).2 = .ok simulation)
    (several : 2 ≤ simulation.ranks.length) (filter : Filter) :
    ∃ next count, System.Reaches simulation.plan (simulation.launch filter) next count ∧
      next.Opened simulation.plan 0 Instant.zero ∧
      next.workers = (simulation.ranks.map (logged filter)).map Worker.ofRank ∧
      next.histories = (simulation.ranks.map (logged filter)).map Rank.startDeeds := by
  let launched := simulation.launch filter
  let behind : Fin simulation.ranks.length → Thread C := fun index =>
    .readied (logged filter (simulation.ranks.get index))
  obtain ⟨count, reached⟩ := @System.sweep_threads _ _ simulation.plan launched _ behind
    (fun index threads mine => by
      obtain ⟨count, strides⟩ := Thread.strides_setup (alone_plan several)
        (launched.threads index).positions (launched.threads index) rfl
      exact ⟨count + 1, Nat.succ_pos _, System.reaches_of_strides strides _ index mine⟩)
  have regular := regular_launch built several filter
  have opened : behind = fun index =>
      { worker := Worker.ofRank (logged filter (simulation.ranks.get index)), phase := .opening,
        history := (logged filter (simulation.ranks.get index)).startDeeds } :=
    funext fun index => Thread.readied_eq _
  rw [opened] at reached
  refine ⟨_, count, reached, ⟨?_, fun _ => rfl, fun _ => rfl, fun _ => rfl, fun _ => rfl, rfl, rfl⟩,
    ?_, ?_⟩
  · obtain ⟨schedule, -, executed⟩ := reached
    exact regular.exec (alone_plan several) (ids_injective built) executed
  · rw [System.workers, List.map_map]
    exact List.ofFn_getElem_eq_map simulation.ranks (Worker.ofRank ∘ logged filter)
  · rw [System.histories, List.map_map]
    exact List.ofFn_getElem_eq_map simulation.ranks (Rank.startDeeds ∘ logged filter)

end Simulation

end Rally
