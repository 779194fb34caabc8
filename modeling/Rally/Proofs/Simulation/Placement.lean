import Mathlib.Data.List.Nodup
import Rally.Simulation.Run
/-!
# The ranks of a simulation

The ranks of a simulation have the numbers in use, in ascending order and each of them once. Before
a run, nothing has happened on a rank: no message is scheduled or laid out.
-/

namespace Rally

namespace Simulation

variable {C : Type}

/-- Adding a number to ascending ones adds this number alone. -/
theorem mem_insertRank {rank other : RankId} {ids : List RankId} :
    other ∈ insertRank rank ids ↔ other = rank ∨ other ∈ ids := by
  induction ids with
  | nil => simp [insertRank]
  | cons first rest ih =>
    rw [insertRank]
    split
    · simp
    · split
      · next same =>
        subst same
        simp
      · simp [ih, or_left_comm]

/-- Adding a number to ascending ones keeps them ascending. -/
theorem ascending_insertRank {rank : RankId} {ids : List RankId}
    (ascending : ids.Pairwise (· < ·)) : (insertRank rank ids).Pairwise (· < ·) := by
  induction ids with
  | nil => exact List.pairwise_singleton _ _
  | cons first rest ih =>
    obtain ⟨above, others⟩ := List.pairwise_cons.mp ascending
    rw [insertRank]
    split
    · next less =>
      refine List.pairwise_cons.mpr ⟨fun other inside => ?_, ascending⟩
      rcases List.mem_cons.mp inside with rfl | inside
      · exact less
      · exact Nat.lt_trans less (above other inside)
    · split
      · exact ascending
      · next notLess differ =>
        refine List.pairwise_cons.mpr ⟨fun other inside => ?_, ih others⟩
        rcases mem_insertRank.mp inside with rfl | inside
        · exact Nat.lt_of_le_of_ne (Nat.le_of_not_lt notLess) (Ne.symm differ)
        · exact above other inside

/-- Adding numbers to ascending ones keeps them ascending, and adds these numbers alone. -/
theorem foldl_insertRank (ranks ids : List RankId) (ascending : ids.Pairwise (· < ·)) :
    (ranks.foldl (fun ids rank => insertRank rank ids) ids).Pairwise (· < ·) ∧
      ∀ other, other ∈ ranks.foldl (fun ids rank => insertRank rank ids) ids ↔
        other ∈ ranks ∨ other ∈ ids := by
  induction ranks generalizing ids with
  | nil => exact ⟨ascending, fun other => by simp⟩
  | cons rank rest ih =>
    obtain ⟨sorted, content⟩ := ih (insertRank rank ids) (ascending_insertRank ascending)
    refine ⟨sorted, fun other => ?_⟩
    rw [List.foldl_cons, content, mem_insertRank, List.mem_cons]
    tauto

/-- The numbers in use are ascending. -/
theorem rankIds_ascending (ranks : List RankId) : (rankIds ranks).Pairwise (· < ·) := by
  rw [rankIds]
  split
  · exact List.pairwise_singleton _ _
  · exact (foldl_insertRank ranks [] List.Pairwise.nil).1

/-- Where there are components, the numbers in use are theirs. -/
theorem mem_rankIds_iff {ranks : List RankId} (some : ranks ≠ []) {rank : RankId} :
    rank ∈ rankIds ranks ↔ rank ∈ ranks := by
  rw [rankIds, if_neg (List.isEmpty_iff.not.mpr some),
    (foldl_insertRank ranks [] List.Pairwise.nil).2]
  exact or_iff_left List.not_mem_nil

/-- The number of every component is in use. -/
theorem mem_rankIds {ranks : List RankId} {rank : RankId} (used : rank ∈ ranks) :
    rank ∈ rankIds ranks :=
  (mem_rankIds_iff (List.ne_nil_of_mem used)).mpr used

/-- What a simulation is built from. -/
theorem build_ok {registry : Registry C} {options : Options} {topology : Topology}
    {clock : Instant} {journal : Journal} {simulation : Simulation C}
    (built : (build registry options topology clock journal).2 = .ok simulation) :
    ∃ assembly placed, Assembly.ofTopology registry topology = .ok assembly ∧
      (placeAll clock assembly.parts.toList journal).2 = .ok placed ∧
      simulation.ranks = (rankIds (placed.map Placed.rank)).map
        (rankOf assembly.links options.limit placed) ∧
      simulation.lookahead = lookaheadOf assembly.links.toList ∧
      simulation.limit = options.limit := by
  unfold build at built
  split at built
  · cases built
  · next assembly resolved =>
    split at built
    · cases built
    · next placed all =>
      refine ⟨assembly, placed, resolved, ?_, ?_⟩
      · rw [all]
      · cases built
        exact ⟨rfl, rfl, rfl⟩

/-- A rank on which nothing has happened. -/
structure Fresh (rank : Rank C) : Prop where
  /-- Nothing is scheduled. -/
  pending : rank.pending = {}
  /-- Nothing is laid out. -/
  outgoing : rank.outgoing = []
  /-- Nothing was ever laid out. -/
  shipped : rank.shipped = 0
  /-- Nothing was dispatched. -/
  dispatched : rank.dispatched = 0
  /-- The time is that of the start. -/
  now : rank.now = Instant.zero

/-- Nothing has happened on the ranks of a simulation. -/
theorem fresh_of_build {registry : Registry C} {options : Options} {topology : Topology}
    {clock : Instant} {journal : Journal} {simulation : Simulation C}
    (built : (build registry options topology clock journal).2 = .ok simulation)
    {rank : Rank C} (inside : rank ∈ simulation.ranks) : Fresh rank := by
  obtain ⟨assembly, placed, -, -, ranks, -⟩ := build_ok built
  rw [ranks] at inside
  obtain ⟨id, -, rfl⟩ := List.mem_map.mp inside
  exact ⟨rfl, rfl, rfl, rfl, rfl⟩

/-- The ranks of a simulation have different numbers. -/
theorem distinct_of_build {registry : Registry C} {options : Options} {topology : Topology}
    {clock : Instant} {journal : Journal} {simulation : Simulation C}
    (built : (build registry options topology clock journal).2 = .ok simulation) :
    (simulation.ranks.map Rank.id).Nodup := by
  obtain ⟨assembly, placed, -, -, ranks, -⟩ := build_ok built
  have same : simulation.ranks.map Rank.id = rankIds (placed.map Placed.rank) := by
    rw [ranks, List.map_map]
    exact List.map_id _
  rw [same]
  exact (rankIds_ascending _).imp fun less => Nat.ne_of_lt less

end Simulation

end Rally
