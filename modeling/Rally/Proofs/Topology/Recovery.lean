import Mathlib.Data.List.Nodup
import Rally.Proofs.Topology.Endpoints
import Rally.Proofs.Yaml.Fields
import Rally.Topology.Schema
/-!
# Topologies from what was written

A topology is written as a mapping of mappings, and where this value is meant it is read by taking the fields
apart again. Names, types, ranks, parameters and latencies are read as they are; the ends of a link are written as
their texts, which tell the ends only where these are legible. So a topology is recovered just where each
link is legible (`Schema.topology_recovers`).
-/

namespace Rally

namespace Keyed

variable {α : Type}

/-- A new name is set behind the others. -/
theorem put_of_notMem {key : String} (value : α) {entries : Keyed α}
    (new : key ∉ entries.map Prod.fst) : put key value entries = entries ++ [(key, value)] := by
  induction entries with
  | nil => rfl
  | cons entry rest ih =>
    obtain ⟨name, former⟩ := entry
    rw [List.map_cons, List.mem_cons, not_or] at new
    rw [put, if_neg (Ne.symm new.1), ih new.2, List.cons_append]

/-- Each value is found where every name has one. -/
theorem get?_of_mem {entries : Keyed α} (distinct : (entries.map Prod.fst).Nodup)
    {key : String} {value : α} (inside : (key, value) ∈ entries) :
    get? key entries = some value := by
  induction entries with
  | nil => exact absurd inside List.not_mem_nil
  | cons entry rest ih =>
    obtain ⟨name, first⟩ := entry
    obtain ⟨new, distinct⟩ := List.nodup_cons.mp distinct
    rcases List.mem_cons.mp inside with same | inside
    · cases same
      rw [get?, if_pos rfl]
    · have differ : name ≠ key := fun same =>
        new (same ▸ List.mem_map.mpr ⟨(key, value), inside, rfl⟩)
      rw [get?, if_neg differ, ih distinct inside]

end Keyed

/-- Whether the text of a link tells its ends and its latency. -/
structure LinkSpec.Legible (link : LinkSpec) : Prop where
  /-- The latency is a number. -/
  latency : link.latency.isNaN = false
  /-- The text of one end tells which one it is. -/
  a : link.a.Legible
  /-- The text of the other end tells which one it is. -/
  b : link.b.Legible

/-- Whether the text of a field of a link tells what belongs to it. -/
def LinkSpec.LegibleIn (spec : LinkSpec) (name : String) : Prop :=
  match name with
  | "name" => True
  | "latency" => spec.latency.isNaN = false
  | _ => spec.a.Legible ∧ spec.b.Legible

/-- The text of a link tells its ends and its latency if the texts of its fields do. -/
theorem LinkSpec.legible_iff {spec : LinkSpec} :
    spec.Legible ↔ ∀ name ∈ ["name", "latency", "ends"], spec.LegibleIn name := by
  simp only [List.forall_mem_cons, LegibleIn]
  constructor
  · rintro ⟨latency, a, b⟩
    exact ⟨trivial, latency, ⟨a, b⟩, fun _ none => absurd none List.not_mem_nil⟩
  · rintro ⟨-, latency, ⟨a, b⟩, -⟩
    exact ⟨latency, a, b⟩

/-- Whether the text of a topology tells everything about it. -/
def Topology.Legible (topology : Topology) : Prop := ∀ link ∈ topology.links, link.Legible

/-- Whether the text of a field of a topology tells what belongs to it. -/
def Topology.LegibleIn (spec : Topology) (name : String) : Prop :=
  match name with
  | "components" => True
  | _ => spec.Legible

/-- Whether what belongs to a field of a topology is as it is in another one. -/
def Topology.Fits (spec : Topology) (name : String) (topology : Topology) : Prop :=
  match name with
  | "components" => sameItems ComponentSpec.same topology.components spec.components = true
  | _ => sameItems LinkSpec.same topology.links spec.links = true

namespace Schema

open Yaml (Node Reader ReadsFields Recovers RecoversFields Spot Value bind_eq_ok_iff)

variable {s : Spot} {before after : Nat}

/-- An endpoint is recovered from its text if it is legible. -/
theorem endpoint_recovers {e : Endpoint} (means : s.Means (.string e.text) before after) :
    Recovers (endpoint s) before after (· = e) e.Legible := by
  obtain ⟨node, between, resolved, -, means⟩ := means.resolve
  refine .after_ok resolved (.after_ok (means.text _) ?_)
  cases parsed : Endpoint.parse e.text with
  | ok found =>
    obtain ⟨alike, legible⟩ := Endpoint.parse_eq_ok_iff.mp parsed
    refine .of_ok rfl ⟨fun same => same ▸ legible, fun able => ?_⟩
    rw [Endpoint.parse_eq_ok_iff.mpr ⟨rfl, able⟩] at parsed
    exact (Except.ok.inj parsed).symm
  | error problem =>
    refine .of_error rfl fun able => ?_
    rw [Endpoint.parse_eq_ok_iff.mpr ⟨rfl, able⟩] at parsed
    cases parsed

/-- The ends of a link are recovered from their texts if both are legible. -/
theorem ends_recovers {a b : Endpoint}
    (means : s.Means (.sequence [.string a.text, .string b.text]) before after) :
    Recovers (ends s) before after (· = (a, b)) (a.Legible ∧ b.Legible) := by
  obtain ⟨t, nodes, between, opened, mean⟩ := means.items "an array of length 2"
  obtain _ | ⟨one, _ | ⟨other, none⟩⟩ := mean
  cases none
  refine .after_ok opened ?_
  -- What is asked of the other end is carried along with the first one.
  refine ((endpoint_recovers (one _)).attach _).bind fun first _ => ?_
  rw [and_comm]
  refine ((endpoint_recovers (other _)).attach _).bind fun second _ => .of_ok rfl ?_
  rw [and_comm]
  exact Prod.ext_iff

/-- Parameters under different names are read one after the other. -/
theorem foldlM_params {entries : List (Node × Node)} {params : Keyed Value}
    (mean : s.MeanFields entries params before after) (distinct : (params.map Prod.fst).Nodup)
    (former : Keyed Value) (new : ∀ name ∈ params.map Prod.fst, name ∉ former.map Prod.fst) :
    ∃ read : Keyed Value, (entries.foldlM (fun params (key, value) => do
        let name ← (s.ofKey key).text "a string"
        let value ← (s.part (Spot.stepOf key) value).value
        return Keyed.put name value params) former : Reader (Keyed Value)) before =
          .ok (former ++ read, after) ∧
      List.Forall₂ (fun entry pair => entry.1 = pair.1 ∧ entry.2.same pair.2 = true) read params := by
  induction mean generalizing former with
  | nil => exact ⟨[], by rw [List.append_nil]; rfl, .nil⟩
  | @cons key node entries name value fields before between behind after named valued rest ih =>
    obtain ⟨lone, distinct⟩ := List.nodup_cons.mp distinct
    obtain ⟨first, others⟩ := List.forall_mem_cons.mp new
    obtain ⟨read, reads, same⟩ := (valued (Spot.stepOf key)).value
    obtain ⟨more, continues, alike⟩ := ih distinct (former ++ [(name, read)]) (by
      intro other inside
      rw [List.map_append, List.mem_append, not_or]
      refine ⟨others other inside, ?_⟩
      rw [List.map_singleton, List.mem_singleton]
      rintro rfl
      exact lone inside)
    refine ⟨(name, read) :: more, ?_, .cons ⟨rfl, same⟩ alike⟩
    rw [List.append_assoc, ← Keyed.put_of_notMem read first] at continues
    rw [List.foldlM_cons]
    refine bind_eq_ok_iff.mpr ⟨_, behind, ?_, continues⟩
    exact bind_eq_ok_iff.mpr ⟨_, _, named.text _, bind_eq_ok_iff.mpr ⟨_, _, reads, rfl⟩⟩

/-- Parameters that are alike, one by one, have equal ones under their names. -/
theorem coversParams_of_forall₂ {params others : Keyed Value}
    (alike : List.Forall₂ (fun entry pair => entry.1 = pair.1 ∧ entry.2.same pair.2 = true)
      params others) {all : Keyed Value} (found : ∀ pair ∈ others, Keyed.get? pair.1 all = some pair.2) :
    ComponentSpec.coversParams params all = true := by
  rw [ComponentSpec.coversParams, List.all_eq_true]
  intro entry inside
  induction alike with
  | nil => exact absurd inside List.not_mem_nil
  | @cons first pair rest pairs same others ih =>
    rcases List.mem_cons.mp inside with rfl | inside
    · dsimp only
      rw [same.1, found pair List.mem_cons_self, Option.any_some]
      exact same.2
    · exact ih (fun pair among => found pair (List.mem_cons_of_mem _ among)) inside

/-- Parameters are recovered. -/
theorem params_reads {parameters : Keyed Value}
    (means : s.Means (.mapping (parameters.map fun (name, value) => (key name, value))) before after) :
    ∃ read, params s before = .ok (read, after) ∧ read.length = parameters.length ∧
      ComponentSpec.coversParams read parameters = true := by
  obtain ⟨t, entries, given, between, opened, mean, perm, distinct⟩ := means.entries "a map"
  obtain ⟨read, reads, alike⟩ := foldlM_params mean distinct [] fun _ _ => List.not_mem_nil
  refine ⟨read, bind_eq_ok_iff.mpr ⟨_, _, opened, reads⟩, alike.length_eq.trans perm.length_eq,
    coversParams_of_forall₂ alike fun pair inside => ?_⟩
  exact Keyed.get?_of_mem ((perm.map _).nodup_iff.mp distinct) (perm.mem_iff.mp inside)

/-- What is required complains about the place of a mapping. -/
theorem required_node {α : Type} (node : Node) (same : node.mark = s.node.mark) (field : String) :
    required { s with node } field = (required s field : Option α → Reader α) := by
  funext found
  cases found with
  | some value => rfl
  | none =>
    rw [required, required, Spot.complain, Spot.complain]
    simp only [same]

/-- A component is read field by field. -/
theorem component_readsFields :
    ReadsFields component ["name", "type", "rank", "params"] componentField {} fun s fields => do
      let name ← required s "name" fields.name
      let type ← required s "type" fields.type
      return { name, type, rank := fields.rank, params := fields.params } where
  shape := ⟨"struct ComponentDef", fun _ => rfl⟩
  marks s node same := by simp only [required_node node same]

/-- The field with the parameters of a component, which is left out where there are none. -/
def paramsField (params : Keyed Value) : Keyed Value :=
  if params.isEmpty then []
  else [("params", .mapping (params.map fun (name, value) => (key name, value)))]

/-- The fields of a component. -/
def fieldsOfComponent (spec : ComponentSpec) : Keyed Value :=
  [("name", .string spec.name), ("type", .string spec.type), ("rank", .number (.integer spec.rank))] ++
    paramsField spec.params

/-- A component is written as its fields. -/
theorem ofComponent_eq (spec : ComponentSpec) :
    ofComponent spec =
      .mapping ((fieldsOfComponent spec).map fun (name, value) => (.string name, value)) := by
  cases none : spec.params <;> simp only [ofComponent, fieldsOfComponent, paramsField, none] <;> rfl

/-- A field of a component leaves what belongs to the others as it is. -/
theorem componentField_keeps {name : String} {record next : ComponentFields}
    (known : name ∈ ["name", "type", "rank", "params"])
    (reads : componentField name s record before = .ok (next, after)) :
    (name ≠ "name" → next.name = record.name) ∧ (name ≠ "type" → next.type = record.type) ∧
      (name ≠ "rank" → next.rank = record.rank) ∧ (name ≠ "params" → next.params = record.params) := by
  simp only [List.mem_cons, List.not_mem_nil, or_false] at known
  rcases known with rfl | rfl | rfl | rfl <;>
  · obtain ⟨_, _, _, done⟩ := bind_eq_ok_iff.mp reads
    cases done
    simp

/-- Whether what belongs to a field of a component is as it is in one. -/
def ComponentFields.Fits (spec : ComponentSpec) (name : String) (fields : ComponentFields) : Prop :=
  match name with
  | "name" => fields.name = some spec.name
  | "type" => fields.type = some spec.type
  | "rank" => fields.rank = spec.rank
  | _ => fields.params.length = spec.params.length ∧
      ComponentSpec.coversParams fields.params spec.params = true

/-- The fields of a component are recovered. -/
theorem componentField_recovers {spec : ComponentSpec} (fits : spec.rank < 1 <<< 32) :
    RecoversFields ["name", "type", "rank", "params"] componentField (fieldsOfComponent spec)
      (ComponentFields.Fits spec) fun _ => True where
  known := by
    rw [fieldsOfComponent, paramsField]
    split <;> simp
  each field inside part before after means record := by
    rw [fieldsOfComponent, paramsField] at inside
    rcases List.mem_append.mp inside with inside | inside
    · simp only [List.mem_cons, List.not_mem_nil, or_false] at inside
      rcases inside with rfl | rfl | rfl
      · exact .of_ok (bind_eq_ok_iff.mpr ⟨_, _, means.text _, rfl⟩) (iff_true_intro rfl)
      · exact .of_ok (bind_eq_ok_iff.mpr ⟨_, _, means.text _, rfl⟩) (iff_true_intro rfl)
      · exact .of_ok (bind_eq_ok_iff.mpr ⟨_, _, means.word fits, rfl⟩) (iff_true_intro rfl)
    · split at inside
      · exact absurd inside List.not_mem_nil
      · obtain rfl := List.mem_singleton.mp inside
        obtain ⟨read, reads, same⟩ := params_reads means
        exact .of_ok (bind_eq_ok_iff.mpr ⟨_, _, reads, rfl⟩) (iff_true_intro same)
  keeps known among differ reads := by
    obtain ⟨sameName, sameType, sameRank, sameParams⟩ := componentField_keeps known reads
    simp only [List.mem_cons, List.not_mem_nil, or_false] at among
    rcases among with rfl | rfl | rfl | rfl <;> simp only [ComponentFields.Fits]
    · rw [sameName differ.symm]
    · rw [sameType differ.symm]
    · rw [sameRank differ.symm]
    · rw [sameParams differ.symm]
      exact Iff.rfl

/-- Only its parameters are left out of a component, where there are none. -/
theorem fits_of_notMem_fieldsOfComponent (spec : ComponentSpec) :
    ∀ name ∈ ["name", "type", "rank", "params"], name ∉ (fieldsOfComponent spec).map Prod.fst →
      ComponentFields.Fits spec name {} := by
  rw [fieldsOfComponent, paramsField]
  split
  · next none =>
    rw [List.isEmpty_iff] at none
    simp [ComponentFields.Fits, none, ComponentSpec.coversParams]
  · simp

/-- What is made of the fields of a component is alike if each field is. -/
theorem component_finishes {spec : ComponentSpec} (s : Spot) (fields : ComponentFields) :
    Recovers (do
        let name ← required s "name" fields.name
        let type ← required s "type" fields.type
        return ({ name, type, rank := fields.rank, params := fields.params } : ComponentSpec))
      before before (fun read => read.same spec = true)
      (∀ name ∈ ["name", "type", "rank", "params"], ComponentFields.Fits spec name fields) := by
  obtain ⟨_ | name, _ | type, rank, params⟩ := fields
  · exact .of_error rfl (by simp [ComponentFields.Fits])
  · exact .of_error rfl (by simp [ComponentFields.Fits])
  · exact .of_error rfl (by simp [ComponentFields.Fits])
  · exact .of_ok rfl (by simp [ComponentFields.Fits, ComponentSpec.same, and_assoc])

/-- A component is recovered. -/
theorem component_recovers {spec : ComponentSpec} (fits : spec.rank < 1 <<< 32)
    (means : s.Means (ofComponent spec) before after) :
    Recovers (component s) before after (fun read => read.same spec = true) True := by
  rw [ofComponent_eq] at means
  refine (component_readsFields.recovers (componentField_recovers fits) component_finishes
    means).congr (iff_true_intro fun name inside => ?_)
  split
  · trivial
  · next absent => exact fits_of_notMem_fieldsOfComponent spec name inside absent

/-- A number that is the same in a document is the same number unless it is none. -/
theorem sameNumber_iff {x y : Binary64} (same : (Yaml.Number.float x).same (.float y) = true) :
    x.sameNumber y = true ↔ y.isNaN = false := by
  rw [Yaml.Number.same, Bool.or_eq_true, Bool.and_eq_true] at same
  constructor
  · intro number
    rw [Binary64.sameNumber, Bool.and_eq_true, Bool.and_eq_true, Bool.not_eq_true'] at number
    simpa using number.1.2
  · intro number
    exact same.resolve_right fun none => Bool.false_ne_true (number.symm.trans none.2)

/-- A link is read field by field. -/
theorem link_readsFields :
    ReadsFields link ["name", "latency", "ends"] linkField {} fun s fields => do
      let name ← required s "name" fields.name
      let (a, b) ← required s "ends" fields.ends
      return { name, latency := fields.latency, a, b } where
  shape := ⟨"struct LinkDef", fun _ => rfl⟩
  marks s node same := by simp only [required_node node same]

/-- The fields of a link. -/
def fieldsOfLink (spec : LinkSpec) : Keyed Value :=
  [("name", .string spec.name), ("latency", .number (.float spec.latency)),
    ("ends", .sequence [.string spec.a.text, .string spec.b.text])]

/-- A field of a link leaves what belongs to the others as it is. -/
theorem linkField_keeps {name : String} {record next : LinkFields}
    (known : name ∈ ["name", "latency", "ends"])
    (reads : linkField name s record before = .ok (next, after)) :
    (name ≠ "name" → next.name = record.name) ∧ (name ≠ "latency" → next.latency = record.latency) ∧
      (name ≠ "ends" → next.ends = record.ends) := by
  simp only [List.mem_cons, List.not_mem_nil, or_false] at known
  rcases known with rfl | rfl | rfl <;>
  · obtain ⟨_, _, _, done⟩ := bind_eq_ok_iff.mp reads
    cases done
    simp

/-- Whether what belongs to a field of a link is as it is in one. -/
def LinkFields.Fits (spec : LinkSpec) (name : String) (fields : LinkFields) : Prop :=
  match name with
  | "name" => fields.name = some spec.name
  | "latency" => fields.latency.sameNumber spec.latency = true
  | _ => fields.ends = some (spec.a, spec.b)

/-- The fields of a link are recovered if their texts tell what belongs to them. -/
theorem linkField_recovers (spec : LinkSpec) :
    RecoversFields ["name", "latency", "ends"] linkField (fieldsOfLink spec) (LinkFields.Fits spec)
      spec.LegibleIn where
  known := by simp [fieldsOfLink]
  each field inside part before after means record := by
    simp only [fieldsOfLink, List.mem_cons, List.not_mem_nil, or_false] at inside
    rcases inside with rfl | rfl | rfl
    · exact .of_ok (bind_eq_ok_iff.mpr ⟨_, _, means.text _, rfl⟩) ⟨fun _ => trivial, fun _ => rfl⟩
    · obtain ⟨read, reads, same⟩ := means.float
      exact .of_ok (bind_eq_ok_iff.mpr ⟨_, _, reads, rfl⟩) (sameNumber_iff same)
    · exact (ends_recovers means).bind fun found _ => .of_ok rfl Option.some_inj
  keeps known among differ reads := by
    obtain ⟨sameName, sameLatency, sameEnds⟩ := linkField_keeps known reads
    simp only [List.mem_cons, List.not_mem_nil, or_false] at among
    rcases among with rfl | rfl | rfl <;> simp only [LinkFields.Fits]
    · rw [sameName differ.symm]
    · rw [sameLatency differ.symm]
    · rw [sameEnds differ.symm]
      exact Iff.rfl

/-- What is made of the fields of a link is alike if each field is. -/
theorem link_finishes {spec : LinkSpec} (s : Spot) (fields : LinkFields) :
    Recovers (do
        let name ← required s "name" fields.name
        let (a, b) ← required s "ends" fields.ends
        return ({ name, latency := fields.latency, a, b } : LinkSpec))
      before before (fun read => read.same spec = true)
      (∀ name ∈ ["name", "latency", "ends"], LinkFields.Fits spec name fields) := by
  obtain ⟨_ | name, latency, _ | ⟨a, b⟩⟩ := fields
  · exact .of_error rfl (by simp [LinkFields.Fits])
  · exact .of_error rfl (by simp [LinkFields.Fits])
  · exact .of_error rfl (by simp [LinkFields.Fits])
  · exact .of_ok rfl (by simp [LinkFields.Fits, LinkSpec.same, and_assoc])

/-- A link is recovered if it is legible. -/
theorem link_recovers {spec : LinkSpec} (means : s.Means (ofLink spec) before after) :
    Recovers (link s) before after (fun read => read.same spec = true) spec.Legible := by
  refine (link_readsFields.recovers (linkField_recovers spec) link_finishes means).congr ?_
  rw [LinkSpec.legible_iff]
  exact forall₂_congr fun name inside => iff_of_eq (if_pos inside)

/-- The items of a list are recovered if all of them can be. -/
theorem mapM_recovers {α : Type} {read : Spot → Reader α} {write : α → Value}
    {same : α → α → Bool} {able : α → Prop} {items : List α}
    (each : ∀ item ∈ items, ∀ {part : Spot} {before after : Nat},
      part.Means (write item) before after →
        Recovers (read part) before after (fun found => same found item = true) (able item))
    {nodes : List Node} (mean : s.MeanItems nodes (items.map write) before after) (start : Nat) :
    Recovers (((nodes.zipIdx start).map fun item => s.part (.item item.2) item.1).mapM read)
      before after (fun found => Topology.sameItems same found items = true)
      (∀ item ∈ items, able item) := by
  induction items generalizing nodes before start with
  | nil =>
    cases mean
    exact .of_ok rfl ⟨fun _ _ none => absurd none List.not_mem_nil, fun _ => rfl⟩
  | cons item items ih =>
    obtain ⟨this, others⟩ := List.forall_mem_cons.mp each
    cases mean with
    | cons first rest =>
      rw [List.zipIdx_cons, List.map_cons, List.mapM_cons, List.forall_mem_cons]
      refine ((this (first _)).attach _).bind fun found _ => ?_
      rw [and_comm]
      refine ((ih others rest _).attach _).bind fun more _ => .of_ok rfl ?_
      rw [Topology.sameItems, Bool.and_eq_true, and_comm]

/-- A list is recovered if all of its items can be. -/
theorem list_recovers {α : Type} {read : Spot → Reader α} {write : α → Value}
    {same : α → α → Bool} {able : α → Prop} {items : List α}
    (each : ∀ item ∈ items, ∀ {part : Spot} {before after : Nat},
      part.Means (write item) before after →
        Recovers (read part) before after (fun found => same found item = true) (able item))
    (means : s.Means (.sequence (items.map write)) before after) :
    Recovers (list read s) before after (fun found => Topology.sameItems same found items = true)
      (∀ item ∈ items, able item) := by
  obtain ⟨t, nodes, between, opened, mean⟩ := means.items "a sequence"
  exact .after_ok opened (mapM_recovers each mean 0)

/-- A topology is read field by field. -/
theorem topology_readsFields :
    ReadsFields topology ["components", "links"] topologyField {} fun _ => pure where
  shape := ⟨"struct TopologyDef", fun s => by
    rw [topology]
    simp only [bind_pure]⟩
  marks _ _ _ := rfl

/-- The fields of a topology. -/
def fieldsOfTopology (spec : Topology) : Keyed Value :=
  [("components", .sequence (spec.components.map ofComponent)),
    ("links", .sequence (spec.links.map ofLink))]

/-- A field of a topology leaves the other one as it is. -/
theorem topologyField_keeps {name : String} {record next : Topology}
    (known : name ∈ ["components", "links"])
    (reads : topologyField name s record before = .ok (next, after)) :
    (name ≠ "components" → next.components = record.components) ∧
      (name ≠ "links" → next.links = record.links) := by
  simp only [List.mem_cons, List.not_mem_nil, or_false] at known
  rcases known with rfl | rfl <;>
  · obtain ⟨_, _, _, done⟩ := bind_eq_ok_iff.mp reads
    cases done
    simp

/-- The fields of a topology are recovered if their texts tell what belongs to them. -/
theorem topologyField_recovers {spec : Topology}
    (fits : ∀ part ∈ spec.components, part.rank < 1 <<< 32) :
    RecoversFields ["components", "links"] topologyField (fieldsOfTopology spec) spec.Fits
      spec.LegibleIn where
  known := by simp [fieldsOfTopology]
  each field inside part before after means record := by
    simp only [fieldsOfTopology, List.mem_cons, List.not_mem_nil, or_false] at inside
    rcases inside with rfl | rfl
    · have components := list_recovers
        (fun part inside => component_recovers (fits part inside)) means
      exact (components.bind fun found _ => .of_ok rfl Iff.rfl).congr
        (iff_of_true (fun _ _ => trivial) trivial)
    · exact (list_recovers (fun _ _ => link_recovers) means).bind fun found _ => .of_ok rfl Iff.rfl
  keeps known among differ reads := by
    obtain ⟨sameComponents, sameLinks⟩ := topologyField_keeps known reads
    simp only [List.mem_cons, List.not_mem_nil, or_false] at among
    rcases among with rfl | rfl <;> simp only [Topology.Fits]
    · rw [sameComponents differ.symm]
    · rw [sameLinks differ.symm]
      exact Iff.rfl

/-- A topology is alike if each of its fields is. -/
theorem topology_finishes {spec : Topology} (record : Topology) :
    Recovers (pure record) before before (fun read => read.same spec = true)
      (∀ name ∈ ["components", "links"], spec.Fits name record) :=
  .of_ok rfl (by simp [Topology.Fits, Topology.same])

/-- A topology is recovered if it is legible. -/
theorem topology_recovers {spec : Topology} (fits : ∀ part ∈ spec.components, part.rank < 1 <<< 32)
    (means : s.Means (ofTopology spec) before after) :
    Recovers (topology s) before after (fun read => read.same spec = true) spec.Legible := by
  refine (topology_readsFields.recovers (topologyField_recovers fits)
    (fun _ record => topology_finishes record) means).congr ?_
  simp [fieldsOfTopology, Topology.LegibleIn]

end Schema

end Rally
