import Rally.Keyed
import Rally.Topology.Endpoint
import Rally.Yaml.Value
/-!
# Topologies

A topology lists component instances and the links between their ports. It is only a description:
whether it makes sense is checked when a simulation is built from it.
-/

namespace Rally

/-- A component instance. -/
structure ComponentSpec where
  /-- Its name. -/
  name : String
  /-- The name of its type. -/
  type : String
  /-- The rank it is placed on. -/
  rank : Nat := 0
  /-- Its parameters. -/
  params : Keyed Yaml.Value := []

/-- A link between two ports. -/
structure LinkSpec where
  /-- Its name. -/
  name : String
  /-- The latency of both directions in seconds. -/
  latency : Binary64 := Binary64.one
  /-- The end at side `a`. -/
  a : Endpoint
  /-- The end at side `b`. -/
  b : Endpoint

/-- A description of a simulation. -/
structure Topology where
  /-- The components in the order of their registration. -/
  components : List ComponentSpec := []
  /-- The links. -/
  links : List LinkSpec := []

namespace ComponentSpec

/-- Whether every parameter of one list has an equal one under the same key in another. -/
def coversParams (params others : Keyed Yaml.Value) : Bool :=
  params.all fun (key, value) => (Keyed.get? key others).any value.same

/-- Whether two instances are described alike. -/
def same (x y : ComponentSpec) : Bool :=
  x.name == y.name && x.type == y.type && x.rank == y.rank &&
    x.params.length == y.params.length && coversParams x.params y.params

end ComponentSpec

namespace LinkSpec

/-- Whether two links are described alike; a latency that is no number differs from itself. -/
def same (x y : LinkSpec) : Bool :=
  x.name == y.name && x.latency.sameNumber y.latency && x.a == y.a && x.b == y.b

end LinkSpec

namespace Topology

/-- Whether two lists agree, item for item. -/
def sameItems {α : Type} (same : α → α → Bool) : List α → List α → Bool
  | [], [] => true
  | x :: xs, y :: ys => same x y && sameItems same xs ys
  | _, _ => false

/-- Whether two topologies describe the same simulation. -/
def same (x y : Topology) : Bool :=
  sameItems ComponentSpec.same x.components y.components && sameItems LinkSpec.same x.links y.links

/-- Adds a component with textual parameters. -/
def addComponent (topology : Topology) (name type : String) (rank : Nat)
    (params : List (String × String)) : Topology :=
  let entries := params.foldl (fun entries (key, text) => Keyed.put key (.string text) entries) []
  { topology with components := topology.components ++ [⟨name, type, rank, entries⟩] }

/-- Adds a link. -/
def addLink (topology : Topology) (name : String) (latency : Binary64) (a b : Endpoint) :
    Topology :=
  { topology with links := topology.links ++ [⟨name, latency, a, b⟩] }

end Topology

end Rally
