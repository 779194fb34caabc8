import Rally.Proofs.Topology.Omission
import Rally.Proofs.Yaml.Restoring
/-!
# Topologies through their texts

The text of a topology is read as a document, and the topology is read from it. Provided that YAML restores
the value that was written, the topology is recovered just where each link is legible
(`Topology.reads_back`): a latency that is no number differs from itself, and the text of an end that is not
legible is refused or names another end.
-/

namespace Rally

namespace Topology

open Yaml (Document)

/-- A topology is read from a document just where it is read from its node. -/
theorem ofDocument_eq_ok_iff {document : Document} {root : Yaml.Node}
    (rooted : document.root = some root) {read : Topology} :
    ofDocument document = .ok read ↔
      ∃ after, Schema.topology (document.spot root) 0 = .ok (read, after) := by
  rw [ofDocument, rooted]
  dsimp only [StateT.run]
  split
  · next found after runs =>
    rw [runs]
    constructor
    · intro same
      cases same
      exact ⟨after, rfl⟩
    · rintro ⟨_, same⟩
      cases same
      rfl
  · next complaint runs =>
    rw [runs]
    constructor
    · intro none
      cases none
    · rintro ⟨_, none⟩
      cases none

/-- A document that stands for a value is only refused as unreadable, in so many words. -/
theorem unreadable_of_ofDocument {document : Document} {root : Yaml.Node}
    (rooted : document.root = some root) (stands : document.hasValue root = true)
    {problem : ConfigError} (refused : ofDocument document = .error problem) :
    ∃ wording, problem = .unreadable (some wording) := by
  rw [ofDocument, rooted] at refused
  dsimp only at refused
  split at refused
  · cases refused
  · cases refused
    exact ⟨_, by rw [if_pos stands]⟩

/-- Whatever its names, types, ranks, parameters, latencies and ends, a topology whose text YAML restores is
read back from it just where each link is legible. Otherwise the text is refused as unreadable or read as
a different topology. A field of a mapping that is left out is read as if it were written as the empty list, rank
zero, no parameters or a latency of one second. -/
theorem reads_back :
    (∀ topology : Topology, (∀ spec ∈ topology.components, spec.rank < 1 <<< 32) →
      (Schema.ofTopology topology).IsRestored →
      ((∃ read, ofYaml topology.toYaml = .ok read ∧ read.same topology = true) ↔
        topology.Legible) ∧
      (¬topology.Legible →
        (∃ wording, ofYaml topology.toYaml = .error (.unreadable (some wording))) ∨
        ∃ read, ofYaml topology.toYaml = .ok read ∧ read.same topology = false)) ∧
    Yaml.FillsIn Schema.topology "components" (.sequence []) ∧
    Yaml.FillsIn Schema.topology "links" (.sequence []) ∧
    Yaml.FillsIn Schema.component "rank" (.number (.integer 0)) ∧
    Yaml.FillsIn Schema.component "params" (.mapping []) ∧
    Yaml.FillsIn Schema.link "latency" (.number (.float Binary64.one)) := by
  refine ⟨fun topology fits restored => ?_, Schema.components_fillsIn, Schema.links_fillsIn,
    Schema.rank_fillsIn, Schema.params_fillsIn, Schema.latency_fillsIn⟩
  obtain ⟨document, root, followed, parsed, rooted, stands, means⟩ := restored.means
  have recovers := Schema.topology_recovers fits means
  rw [ofYaml, toYaml, parsed]
  dsimp only
  refine ⟨⟨?_, fun legible => ?_⟩, fun illegible => ?_⟩
  · rintro ⟨read, reads, alike⟩
    obtain ⟨_, runs⟩ := (ofDocument_eq_ok_iff rooted).mp reads
    exact (recovers.gives runs).2.mp alike
  · obtain ⟨read, runs⟩ := recovers.succeeds legible
    exact ⟨read, (ofDocument_eq_ok_iff rooted).mpr ⟨_, runs⟩, (recovers.gives runs).2.mpr legible⟩
  · cases result : ofDocument document with
    | error problem =>
      obtain ⟨wording, rfl⟩ := unreadable_of_ofDocument rooted stands result
      exact .inl ⟨wording, rfl⟩
    | ok read =>
      obtain ⟨_, runs⟩ := (ofDocument_eq_ok_iff rooted).mp result
      refine .inr ⟨read, rfl, Bool.eq_false_iff.mpr fun alike => illegible ?_⟩
      exact (recovers.gives runs).2.mp alike

/-- A component that is linked to itself. -/
def selfLinked : Topology :=
  { components := [⟨"a.b", "T", 3, [("k", .bool true)]⟩],
    links := [⟨"l", Binary64.one, ⟨"a.b", "x"⟩, ⟨"a.b", "y"⟩⟩] }

/-- The same component with another name of one end, which has the same text. -/
def misnamed : Topology :=
  { selfLinked with links := [⟨"l", Binary64.one, ⟨"a", "b.x"⟩, ⟨"a.b", "y"⟩⟩] }

/-- The ends of a link that are told apart by nothing in their texts are written alike. -/
theorem ofTopology_misnamed : Schema.ofTopology misnamed = Schema.ofTopology selfLinked := by
  have alike : (⟨"a", "b.x"⟩ : Endpoint).text = (⟨"a.b", "x"⟩ : Endpoint).text := by decide
  simp only [Schema.ofTopology, misnamed, selfLinked, List.map_cons, Schema.ofLink, alike]

/-- Of two topologies with one text, which is restored, the one with a legible link is read back, and the
other one is not. -/
theorem reads_back_selfLinked :
    ((∀ spec ∈ selfLinked.components, spec.rank < 1 <<< 32) ∧
      (Schema.ofTopology selfLinked).IsRestored ∧ selfLinked.Legible ∧
      ∃ read, ofYaml selfLinked.toYaml = .ok read ∧ read.same selfLinked = true) ∧
    (∀ spec ∈ misnamed.components, spec.rank < 1 <<< 32) ∧
      (Schema.ofTopology misnamed).IsRestored ∧ ¬misnamed.Legible ∧
      ¬∃ read, ofYaml misnamed.toYaml = .ok read ∧ read.same misnamed = true := by
  have fits : ∀ spec ∈ selfLinked.components, spec.rank < 1 <<< 32 := by decide
  have restored : (Schema.ofTopology selfLinked).IsRestored :=
    Yaml.Value.isRestored_of_restores (by decide +kernel)
  have legible : selfLinked.Legible := by
    intro link inside
    obtain rfl := List.mem_singleton.mp inside
    exact ⟨by decide, by decide, by decide⟩
  have alike : (Schema.ofTopology misnamed).IsRestored := ofTopology_misnamed ▸ restored
  have illegible : ¬misnamed.Legible := fun legible =>
    absurd (legible _ List.mem_cons_self).a.plain (by decide)
  exact ⟨⟨fits, restored, legible, (reads_back.1 selfLinked fits restored).1.mpr legible⟩,
    fits, alike, illegible, mt (reads_back.1 misnamed fits alike).1.mp illegible⟩

end Topology

end Rally
