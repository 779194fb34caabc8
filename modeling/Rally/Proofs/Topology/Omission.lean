import Rally.Proofs.Topology.Recovery
import Rally.Proofs.Yaml.Omission
/-!
# What may be left out of a topology

Components, links and parameters that are left out are read as none, a rank as zero and a latency as one
second. A topology, a component and a link are each read field by field, and none of their fields sets what
belongs to another one.
-/

namespace Rally

namespace Schema

open Yaml (FillsIn Reader Spot bind_eq_ok_iff)

variable {s : Spot}

/-- An empty list is read as one. -/
theorem list_nil {α : Type} {read : Spot → Reader α} (holds : s.Holds (.sequence [])) :
    list read s = pure [] := by
  funext count
  obtain ⟨t, nodes, between, opened, mean⟩ := (holds count).items "a sequence"
  cases mean
  exact bind_eq_ok_iff.mpr ⟨_, _, opened, rfl⟩

/-- Empty parameters are read as such. -/
theorem params_nil (holds : s.Holds (.mapping [])) : params s = pure [] := by
  funext count
  obtain ⟨read, reads, none, -⟩ := @params_reads _ _ _ [] (holds count)
  rw [reads, List.eq_nil_of_length_eq_zero none]
  rfl

/-- Only one is the same number as one. -/
theorem eq_one_of_sameNumber {x : Binary64} (same : x.sameNumber Binary64.one = true) :
    x = Binary64.one := by
  have nonzero : Binary64.one.isZero = false := by decide
  rw [Binary64.sameNumber, nonzero, Bool.and_false, Bool.or_false, Bool.and_eq_true] at same
  exact beq_iff_eq.mp same.2

/-- The latency of one second is read as such. -/
theorem float_one (holds : s.Holds (.number (.float Binary64.one))) :
    s.float = pure Binary64.one := by
  funext count
  obtain ⟨read, reads, same⟩ := (holds count).float
  rw [reads, eq_one_of_sameNumber ((sameNumber_iff same).mpr (by decide))]
  rfl

/-- The rank zero is read as such. -/
theorem word_zero (holds : s.Holds (.number (.integer 0))) : s.word = pure 0 :=
  funext fun count => (holds count).word (n := 0) (by decide)

/-- Leaving out the components of a topology means that there are none. -/
theorem components_fillsIn : FillsIn topology "components" (.sequence []) := by
  refine topology_readsFields.fillsIn (fun record => record.components = []) rfl (by simp) ?_ ?_
  · intro part holds record unset
    have field : topologyField "components" part record = do
      return { record with components := ← list component part } := rfl
    rw [field, list_nil holds, pure_bind, ← unset]
  · intro other differ known part record count next after unset reads
    exact ((topologyField_keeps known reads).1 differ).trans unset

/-- Leaving out the links of a topology means that there are none. -/
theorem links_fillsIn : FillsIn topology "links" (.sequence []) := by
  refine topology_readsFields.fillsIn (fun record => record.links = []) rfl (by simp) ?_ ?_
  · intro part holds record unset
    have field : topologyField "links" part record = do
      return { record with links := ← list link part } := rfl
    rw [field, list_nil holds, pure_bind, ← unset]
  · intro other differ known part record count next after unset reads
    exact ((topologyField_keeps known reads).2 differ).trans unset

/-- Leaving out the rank of a component means rank zero. -/
theorem rank_fillsIn : FillsIn component "rank" (.number (.integer 0)) := by
  refine component_readsFields.fillsIn (fun record => record.rank = 0) rfl (by simp) ?_ ?_
  · intro part holds record unset
    have field : componentField "rank" part record = do
      return { record with rank := ← part.word } := rfl
    rw [field, word_zero holds, pure_bind, ← unset]
  · intro other differ known part record count next after unset reads
    exact ((componentField_keeps known reads).2.2.1 differ).trans unset

/-- Leaving out the parameters of a component means that there are none. -/
theorem params_fillsIn : FillsIn component "params" (.mapping []) := by
  refine component_readsFields.fillsIn (fun record => record.params = []) rfl (by simp) ?_ ?_
  · intro part holds record unset
    have field : componentField "params" part record = do
      return { record with params := ← params part } := rfl
    rw [field, params_nil holds, pure_bind, ← unset]
  · intro other differ known part record count next after unset reads
    exact ((componentField_keeps known reads).2.2.2 differ).trans unset

/-- Leaving out the latency of a link means one second. -/
theorem latency_fillsIn : FillsIn link "latency" (.number (.float Binary64.one)) := by
  refine link_readsFields.fillsIn (fun record => record.latency = Binary64.one) rfl
    (by simp) ?_ ?_
  · intro part holds record unset
    have field : linkField "latency" part record = do
      return { record with latency := ← part.float } := rfl
    rw [field, float_one holds, pure_bind, ← unset]
  · intro other differ known part record count next after unset reads
    exact ((linkField_keeps known reads).2.1 differ).trans unset

end Schema

end Rally
