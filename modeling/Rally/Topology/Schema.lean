import Rally.Topology.Definition
import Rally.Yaml.Printer
import Rally.Yaml.Reading
/-!
# Topologies as YAML

A topology is a mapping with the lists `components` and `links`. Reading accepts fields in any
order, passes over unknown ones and fills in what may be left out; writing leaves out parameters
only where there are none.
-/

namespace Rally

namespace Schema

open Yaml (Complaint Document Reader Spot Value)

/-- Reads an endpoint. -/
def endpoint (s : Spot) : Reader Endpoint := do
  let s ← s.resolve
  match Endpoint.parse (← s.text "string of the form 'component.port'") with
  | .ok endpoint => return endpoint
  | .error problem => s.complain (.broken problem.message)

/-- Reads the two ends of a link. -/
def ends (s : Spot) : Reader (Endpoint × Endpoint) := do
  let expected := "an array of length 2"
  let (s, items) ← s.items expected
  match items with
  | [] => s.complain (.length 0 expected)
  | [a] => do
    let _ ← endpoint a
    s.complain (.length 1 expected)
  | a :: b :: rest => do
    let a ← endpoint a
    let b ← endpoint b
    if rest.isEmpty then return (a, b)
    else s.complain (.length (2 + rest.length) "sequence of 2 elements")

/-- Reads parameters, of which the last one under a key counts. -/
def params (s : Spot) : Reader (Keyed Value) := do
  let (s, entries) ← s.entries "a map"
  entries.foldlM (fun params (key, value) => do
    let name ← (s.ofKey key).text "a string"
    let value ← (s.part (Spot.stepOf key) value).value
    return Keyed.put name value params) []

/-- The fields of a component read so far. -/
structure ComponentFields where
  /-- Its name. -/
  name : Option String := none
  /-- Its type. -/
  type : Option String := none
  /-- Its rank. -/
  rank : Nat := 0
  /-- Its parameters. -/
  params : Keyed Value := []

/-- Reads a field of a component. -/
def componentField (name : String) (s : Spot) (fields : ComponentFields) :
    Reader ComponentFields := do
  match name with
  | "name" => return { fields with name := some (← s.text "a string") }
  | "type" => return { fields with type := some (← s.text "a string") }
  | "rank" => return { fields with rank := ← s.word }
  | _ => return { fields with params := ← params s }

/-- The value of a field that may not be left out. -/
def required {α : Type} (s : Spot) (field : String) : Option α → Reader α
  | some value => return value
  | none => s.complain (.missing field)

/-- Reads a component. -/
def component (s : Spot) : Reader ComponentSpec := do
  let (s, entries) ← s.entries "struct ComponentDef"
  let fields ← s.fields ["name", "type", "rank", "params"] entries componentField [] {}
  let name ← required s "name" fields.name
  let type ← required s "type" fields.type
  return { name, type, rank := fields.rank, params := fields.params }

/-- The fields of a link read so far. -/
structure LinkFields where
  /-- Its name. -/
  name : Option String := none
  /-- Its latency. -/
  latency : Binary64 := Binary64.one
  /-- Its ends. -/
  ends : Option (Endpoint × Endpoint) := none

/-- Reads a field of a link. -/
def linkField (name : String) (s : Spot) (fields : LinkFields) : Reader LinkFields := do
  match name with
  | "name" => return { fields with name := some (← s.text "a string") }
  | "latency" => return { fields with latency := ← s.float }
  | _ => return { fields with ends := some (← ends s) }

/-- Reads a link. -/
def link (s : Spot) : Reader LinkSpec := do
  let (s, entries) ← s.entries "struct LinkDef"
  let fields ← s.fields ["name", "latency", "ends"] entries linkField [] {}
  let name ← required s "name" fields.name
  let (a, b) ← required s "ends" fields.ends
  return { name, latency := fields.latency, a, b }

/-- Reads a list. -/
def list {α : Type} (read : Spot → Reader α) (s : Spot) : Reader (List α) := do
  let (_, items) ← s.items "a sequence"
  items.mapM read

/-- Reads a field of a topology. -/
def topologyField (name : String) (s : Spot) (topology : Topology) : Reader Topology := do
  match name with
  | "components" => return { topology with components := ← list component s }
  | _ => return { topology with links := ← list link s }

/-- Reads a topology. -/
def topology (s : Spot) : Reader Topology := do
  let (s, entries) ← s.entries "struct TopologyDef"
  s.fields ["components", "links"] entries topologyField [] {}

/-- A text as a value. -/
def key (name : String) : Value := .string name

/-- A component as a value. -/
def ofComponent (spec : ComponentSpec) : Value :=
  let params := spec.params.map fun (name, value) => (key name, value)
  .mapping <|
    [(key "name", .string spec.name), (key "type", .string spec.type),
      (key "rank", .number (.integer spec.rank))] ++
    if params.isEmpty then [] else [(key "params", .mapping params)]

/-- A link as a value. -/
def ofLink (spec : LinkSpec) : Value :=
  .mapping [(key "name", .string spec.name), (key "latency", .number (.float spec.latency)),
    (key "ends", .sequence [.string spec.a.text, .string spec.b.text])]

/-- A topology as a value. -/
def ofTopology (topology : Topology) : Value :=
  .mapping [(key "components", .sequence (topology.components.map ofComponent)),
    (key "links", .sequence (topology.links.map ofLink))]

end Schema

namespace Topology

/-- Reads the topology of a document. A complaint has a wording only where the document stands for
a value at all. -/
def ofDocument (document : Yaml.Document) : Except ConfigError Topology :=
  match document.root with
  | none => .ok {}
  | some root =>
    match (Schema.topology (document.spot root)).run 0 with
    | .ok (topology, _) => .ok topology
    | .error complaint =>
      .error (.unreadable (if document.hasValue root then some complaint.message else none))

/-- Reads a topology from YAML text. -/
def ofYaml (text : String) : Except ConfigError Topology :=
  match Yaml.Document.ofText text with
  | .ok document => ofDocument document
  | .error _ => .error (.unreadable none)

/-- Writes a topology as YAML text. -/
def toYaml (topology : Topology) : String := (Schema.ofTopology topology).print

end Topology

end Rally
