import Rally.Proofs.Pool.HookVisits
import Rally.Proofs.Threads.Exchange
/-!
# The calls of all ranks in one list

The events that ranks dispatch are told in one list: by time, at one time by rank, and on one rank
in the order in which it dispatched them. On each rank the list tells what this rank dispatched.
-/

namespace Rally

/-- An event that a rank dispatched. -/
structure Call where
  /-- The event. -/
  entry : Instant × Delivery
  /-- The rank. -/
  rank : RankId
  /-- How many events the rank dispatched before. -/
  position : Nat

namespace Call

/-- The order of calls: by time, rank and position on the rank. -/
def le (x y : Call) : Bool :=
  decide (x.entry.1 < y.entry.1) ||
    (x.entry.1 == y.entry.1 && (decide (x.rank < y.rank) ||
      (x.rank == y.rank && decide (x.position ≤ y.position))))

/-- A parcel with the time, rank and position of a call. -/
def parcel (call : Call) : Parcel := ⟨0, call.rank, call.position, call.entry.1, call.entry.2⟩

/-- Calls are ordered like parcels. -/
theorem le_parcel (x y : Call) : x.le y = x.parcel.le y.parcel := rfl

/-- The order of calls is transitive. -/
theorem le_trans (x y z : Call) (first : x.le y = true) (second : y.le z = true) :
    x.le z = true :=
  Parcel.le_trans x.parcel y.parcel z.parcel first second

/-- Of two calls, one comes before the other. -/
theorem le_total (x y : Call) : (x.le y || y.le x) = true := Parcel.le_total x.parcel y.parcel

/-- Calls in order are in the order of time. -/
theorem time_le {x y : Call} (ordered : x.le y = true) : x.entry.1 ≤ y.entry.1 := by
  rw [le_parcel, Parcel.le_iff] at ordered
  rcases ordered with early | ⟨same, -⟩
  · exact le_of_lt early
  · exact le_of_eq same

end Call

/-- The calls of a rank that dispatched some events. -/
def callsOf (rank : RankId) (entries : List (Instant × Delivery)) : List Call :=
  entries.mapIdx fun position entry => ⟨entry, rank, position⟩

/-- The calls of several ranks in one list. -/
def mergedCalls {n : Nat} (ids : Fin n → RankId) (entries : Fin n → List (Instant × Delivery)) :
    List Call :=
  ((List.finRange n).flatMap fun index => callsOf (ids index) (entries index)).mergeSort Call.le

/-- The calls of a rank are those of what it dispatched. -/
theorem map_callsOf (rank : RankId) (entries : List (Instant × Delivery)) :
    (callsOf rank entries).map Call.entry = entries := by
  refine List.ext_getElem? fun position => ?_
  rw [List.getElem?_map, callsOf, List.getElem?_mapIdx]
  cases entries[position]? <;> rfl

/-- The calls of a rank are calls on it. -/
theorem rank_of_mem_callsOf {rank : RankId} {entries : List (Instant × Delivery)} {call : Call}
    (inside : call ∈ callsOf rank entries) : call.rank = rank := by
  obtain ⟨position, found⟩ := List.mem_iff_getElem?.mp inside
  rw [callsOf, List.getElem?_mapIdx, Option.map_eq_some_iff] at found
  obtain ⟨entry, -, rfl⟩ := found
  rfl

/-- Where a rank dispatched in the order of time, its calls are in order. -/
theorem ordered_callsOf (rank : RankId) {entries : List (Instant × Delivery)}
    (ascending : entries.Pairwise fun x y => x.1 ≤ y.1) :
    (callsOf rank entries).Pairwise fun x y => x.le y = true := by
  rw [List.pairwise_iff_getElem] at *
  intro i j first second less
  simp only [callsOf, List.length_mapIdx] at first second
  simp only [callsOf, List.getElem_mapIdx, Call.le_parcel, Parcel.le_iff]
  rcases lt_or_eq_of_le (ascending i j first second less) with early | same
  · exact Or.inl early
  · exact Or.inr ⟨same, Or.inr ⟨rfl, Nat.le_of_lt less⟩⟩

/-- Where one member of a list alone tells something, this is all that the list tells. -/
theorem flatMap_eq_of_alone {α β : Type} {f : α → List β} {members : List α} {member : α}
    (nodup : members.Nodup) (inside : member ∈ members)
    (others : ∀ other ∈ members, other ≠ member → f other = []) :
    members.flatMap f = f member := by
  induction members with
  | nil => cases inside
  | cons first rest ih =>
    obtain ⟨fresh, nodup⟩ := List.nodup_cons.mp nodup
    rw [List.flatMap_cons]
    rcases List.mem_cons.mp inside with rfl | inside
    · have none : rest.flatMap f = [] := by
        rw [List.flatMap_eq_nil_iff]
        intro other there
        exact others other (List.mem_cons_of_mem _ there) fun same => fresh (same ▸ there)
      rw [none, List.append_nil]
    · rw [others first List.mem_cons_self fun same => fresh (same ▸ inside), List.nil_append]
      exact ih nodup inside fun other there => others other (List.mem_cons_of_mem _ there)

section Merged

variable {n : Nat} {ids : Fin n → RankId} {entries : Fin n → List (Instant × Delivery)}

/-- The merged calls are in the order of time. -/
theorem ascending_mergedCalls :
    (mergedCalls ids entries).Pairwise fun x y => x.entry.1 ≤ y.entry.1 :=
  (List.pairwise_mergeSort Call.le_trans Call.le_total _).imp Call.time_le

/-- Every merged call is one on some rank. -/
theorem rank_of_mem_mergedCalls {call : Call} (inside : call ∈ mergedCalls ids entries) :
    ∃ index, call.rank = ids index := by
  obtain ⟨index, -, there⟩ := List.mem_flatMap.mp (List.mem_mergeSort.mp inside)
  exact ⟨index, rank_of_mem_callsOf there⟩

/-- On each rank the merged calls are those of this rank, in their order. -/
theorem filter_mergedCalls (distinct : Function.Injective ids)
    (ascending : ∀ index, (entries index).Pairwise fun x y => x.1 ≤ y.1) (index : Fin n) :
    ((mergedCalls ids entries).filter fun call => call.rank == ids index).map Call.entry =
      entries index := by
  let all := (List.finRange n).flatMap fun index => callsOf (ids index) (entries index)
  have whole : ∀ call ∈ callsOf (ids index) (entries index), (call.rank == ids index) = true :=
    fun call inside => beq_iff_eq.mpr (rank_of_mem_callsOf inside)
  have own : all.filter (fun call => call.rank == ids index) =
      callsOf (ids index) (entries index) := by
    rw [List.filter_flatMap]
    refine (flatMap_eq_of_alone (List.nodup_finRange n) (List.mem_finRange index) ?_).trans
      (List.filter_eq_self.mpr whole)
    intro other _ differ
    rw [List.filter_eq_nil_iff]
    intro call inside
    rw [rank_of_mem_callsOf inside, beq_iff_eq]
    exact fun same => differ (distinct same)
  -- Sorting keeps what is in order already.
  have sublist : (callsOf (ids index) (entries index)).Sublist (mergedCalls ids entries) := by
    refine List.sublist_mergeSort Call.le_trans Call.le_total
      (ordered_callsOf _ (ascending index)) ?_
    rw [← own]
    exact List.filter_sublist
  have part := sublist.filter fun call => call.rank == ids index
  rw [List.filter_eq_self.mpr whole] at part
  have length := ((List.mergeSort_perm all Call.le).filter fun call => call.rank == ids index).length_eq
  rw [own] at length
  rw [← part.eq_of_length length.symm, map_callsOf]

end Merged

end Rally
