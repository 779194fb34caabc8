import Rally.Topology.Definition
import Rally.Topology.Registry
/-!
# Checking a topology

A topology is checked against a registry in the order in which it is written: first all components,
then all links. What remains are components with the link ends attached to their ports, and links
with the places of their ends; the first complaint ends the check.
-/

namespace Rally

/-- A component that passed the check. -/
structure Part (C : Type) where
  /-- Its name. -/
  name : String
  /-- The rank it is placed on. -/
  rank : RankId
  /-- Its type. -/
  type : ComponentType C
  /-- Its parameters. -/
  params : Parameters
  /-- The link ends attached to its ports, the last one first. -/
  wiring : Wiring := []

/-- A topology that passed the check. -/
structure Assembly (C : Type) where
  /-- The components in the order of their registration. -/
  parts : Array (Part C)
  /-- The links in the order of their definition. -/
  links : Array Link

namespace Assembly

variable {C : Type}

/-- The text of a parameter, which must be a text, a number or a truth value. -/
def paramText (component key : String) : Yaml.Value → Except ConfigError String
  | .string text => .ok text
  | .number n => .ok n.text
  | .bool b => .ok (toString b)
  | value => .error (.invalidParam component key value.inspect)

/-- The texts of all parameters of a component. -/
def paramTexts (spec : ComponentSpec) : Except ConfigError Parameters :=
  spec.params.foldlM
    (fun params (key, value) => (paramText spec.name key value).map (params.insert key))
    ⟨spec.name, []⟩

/-- Checks one component against those before it. -/
def part (registry : Registry C) (before : List ComponentSpec) (spec : ComponentSpec) :
    Except ConfigError (Part C) := do
  if before.any fun other => other.name == spec.name then
    throw (.duplicateComponent spec.name)
  match registry.get? spec.type with
  | none => throw (.unknownComponentType spec.name spec.type)
  | some type => return ⟨spec.name, spec.rank, type, ← paramTexts spec, []⟩

/-- Checks components behind those already checked. -/
def partsBehind (registry : Registry C) (before : List ComponentSpec) :
    List ComponentSpec → Except ConfigError (List (Part C))
  | [] => .ok []
  | spec :: rest => do
    let first ← part registry before spec
    let others ← partsBehind registry (spec :: before) rest
    return first :: others

/-- The components with the link ends attached so far. -/
abbrev Parts (C : Type) := Array (Part C)

/-- The position of the component of a name. -/
def componentId? (parts : Parts C) (name : String) : Option ComponentId :=
  parts.findIdx? fun part => part.name == name

/-- Attaches one end of a link to the port that it names. -/
def attach (spec : LinkSpec) (id : LinkId) (side : Side) (endpoint : Endpoint) (parts : Parts C) :
    Except ConfigError (LinkEnd × Parts C) :=
  match componentId? parts endpoint.component with
  | none => .error (.unknownComponent spec.name endpoint.component)
  | some component =>
    match parts[component]? with
    | none => .error (.unknownComponent spec.name endpoint.component)
    | some part =>
      match portId? part.type.ports endpoint.port with
      | none => .error (.unknownPort endpoint.component endpoint.port)
      | some port =>
        if (part.wiring.lookup port).isSome then
          .error (.portAlreadyLinked endpoint.component endpoint.port)
        else
          let part := { part with wiring := (port, id, side) :: part.wiring }
          .ok (⟨component, port, part.rank⟩, parts.setIfInBounds component part)

/-- Checks one link against those before it and attaches its ends. -/
def link (before : List LinkSpec) (spec : LinkSpec) (parts : Parts C) :
    Except ConfigError (Link × Parts C) := do
  let id := before.length
  if before.any fun other => other.name == spec.name then
    throw (.duplicateLink spec.name)
  let latency ← (Duration.ofSeconds spec.latency).mapError fun _ =>
    ConfigError.invalidLatency spec.name spec.latency.positional
  if spec.a = spec.b then
    throw (.selfLink spec.name)
  let (a, parts) ← attach spec id .a spec.a parts
  let (b, parts) ← attach spec id .b spec.b parts
  let link : Link := ⟨spec.name, latency, a, b⟩
  if link.crossesRanks && link.latency == Duration.zero then
    throw (.zeroLatencyCrossRank spec.name)
  return (link, parts)

/-- Checks links behind those already checked. -/
def linksBehind (before : List LinkSpec) :
    List LinkSpec → Parts C → Except ConfigError (List Link × Parts C)
  | [], parts => .ok ([], parts)
  | spec :: rest, parts => do
    let (first, parts) ← link before spec parts
    let (others, parts) ← linksBehind (spec :: before) rest parts
    return (first :: others, parts)

/-- Checks a topology. -/
def ofTopology (registry : Registry C) (topology : Topology) : Except ConfigError (Assembly C) := do
  let parts ← partsBehind registry [] topology.components
  let (links, parts) ← linksBehind [] topology.links parts.toArray
  return ⟨parts, links.toArray⟩

end Assembly

end Rally
