import Rally.Component
import Rally.Topology.Parameters
/-!
# Component types

A component type declares ports and parameters and creates instances. Creating an instance
configures ports, each of which must be declared and attached to a link. The registry finds a type
by its full name.
-/

namespace Rally

/-- Whether a port receives messages. -/
inductive PortMode where
  /-- It sends and receives. -/
  | duplex
  /-- It only sends. -/
  | sendOnly
  deriving DecidableEq, Inhabited

/-- A configured port: the end of a link, and how it is used. -/
structure Binding where
  /-- The attached link. -/
  link : LinkId
  /-- The side of the link. -/
  side : Side
  /-- Whether messages are received. -/
  mode : PortMode
  deriving DecidableEq, Inhabited

/-- The bindings of the declared ports, of which some are not configured. -/
abbrev Ports := List (Option Binding)

/-- The link ends attached to ports. -/
abbrev Wiring := List (PortId × LinkId × Side)

/-- A port that a component type declares. -/
structure PortInfo where
  /-- Its name. -/
  name : String
  /-- What it is for. -/
  description : String
  deriving DecidableEq, Inhabited

/-- A parameter that a component type understands. -/
structure ParamInfo where
  /-- Its key. -/
  name : String
  /-- What it is for. -/
  description : String
  /-- The text taken where it is not set. -/
  default : String
  deriving DecidableEq, Inhabited

/-- What the creation of a component is given. -/
structure Site where
  /-- The name of the component. -/
  name : String
  /-- The rank it is placed on. -/
  rank : RankId
  /-- Its parameters. -/
  params : Parameters
  /-- The ports its type declares. -/
  declared : List PortInfo
  /-- The link ends attached to its ports. -/
  wiring : Wiring

/-- The position of a port of a name. -/
def portId? (declared : List PortInfo) (name : String) : Option PortId :=
  declared.findIdx? fun port => port.name == name

namespace Site

/-- The link end attached to a port. -/
def wire? (site : Site) (port : String) : Option (PortId × LinkId × Side) :=
  (portId? site.declared port).bind fun id =>
    (site.wiring.lookup id).map fun (link, side) => (id, link, side)

/-- Whether a link is attached to a port. -/
def isWired (site : Site) (port : String) : Bool := (site.wire? port).isSome

/-- A wired port is attached to the link end found for it. -/
theorem lookup_of_wire? {site : Site} {port : String} {id : PortId} {link : LinkId} {side : Side}
    (wired : site.wire? port = some (id, link, side)) :
    site.wiring.lookup id = some (link, side) := by
  simp only [wire?, Option.bind_eq_some_iff, Option.map_eq_some_iff] at wired
  obtain ⟨found, -, attached, present, same⟩ := wired
  cases same
  exact present

/-- Bindings of the declared ports, each to the link end attached to its port. -/
structure Bindings (site : Site) where
  /-- The bindings by port. -/
  ports : Ports
  /-- A configured port is bound to the link end attached to it. -/
  attached : ∀ port binding, ports[port]?.join = some binding →
    site.wiring.lookup port = some (binding.link, binding.side)

/-- No port is configured at first. -/
def noPorts (site : Site) : site.Bindings where
  ports := List.replicate site.declared.length none
  attached port binding bound := by
    simp only [List.getElem?_replicate] at bound
    split at bound <;> simp at bound

/-- Configures a port in a mode; of several configurations the last one counts. -/
def configure (site : Site) (mode : PortMode) (port : String) (bindings : site.Bindings) :
    Except ConfigError (PortId × site.Bindings) :=
  match wired : site.wire? port with
  | some (id, link, side) => .ok (id, {
      ports := bindings.ports.set id (some ⟨link, side, mode⟩)
      attached := fun other binding bound => by
        rw [List.getElem?_set] at bound
        split at bound
        · split at bound <;> simp at bound
          subst_vars
          exact lookup_of_wire? wired
        · exact bindings.attached other binding bound })
  | none => .error (.unboundPort site.name port)

end Site

/-- A component created at a site, with its ports and first votes. -/
structure Fitted (C : Type) (site : Site) where
  /-- The component. -/
  component : C
  /-- Its ports. -/
  bindings : site.Bindings
  /-- The votes cast while it was created. -/
  votes : List Vote := []

/-- The result of creating a component at a site, and the log lines written meanwhile. -/
structure Creation (C : Type) (site : Site) where
  /-- The log lines. -/
  notes : List Note := []
  /-- The component, or what is wrong with its configuration. -/
  result : Except ConfigError (Fitted C site)

/-- The result of creating a component inside of another type. -/
def Creation.map {C D : Type} {site : Site} (wrap : C → D) (creation : Creation C site) :
    Creation D site where
  notes := creation.notes
  result :=
    creation.result.map fun fitted => ⟨wrap fitted.component, fitted.bindings, fitted.votes⟩

/-- A type of components. -/
structure ComponentType (C : Type) where
  /-- The library it belongs to. -/
  library : String
  /-- Its name within the library. -/
  name : String
  /-- What its instances do. -/
  description : String
  /-- The ports that instances may use. -/
  ports : List PortInfo
  /-- The parameters that instances understand. -/
  params : List ParamInfo
  /-- Creates an instance. -/
  create : (site : Site) → Creation C site

namespace ComponentType

variable {C : Type}

/-- The full name of a type. -/
def fullName (type : ComponentType C) : String := type.library ++ "." ++ type.name

/-- The declared port of a name. -/
def port? (type : ComponentType C) (name : String) : Option PortInfo :=
  type.ports.find? fun port => port.name == name

/-- Texts between brackets, with commas between them. -/
def listed (texts : List String) : String := "[" ++ ", ".intercalate texts ++ "]"

/-- A declared port in words. -/
def inspectPort (port : PortInfo) : String :=
  "PortDescriptor \x7b name: " ++ Text.quote port.name ++ ", description: " ++
    Text.quote port.description ++ " \x7d"

/-- A parameter in words. -/
def inspectParam (param : ParamInfo) : String :=
  "ParamDescriptor \x7b name: " ++ Text.quote param.name ++ ", description: " ++
    Text.quote param.description ++ ", default: " ++ Text.quote param.default ++ " \x7d"

/-- A type in words. -/
def inspect (type : ComponentType C) : String :=
  "ComponentDescriptor \x7b library: " ++ Text.quote type.library ++ ", name: " ++
    Text.quote type.name ++ ", ports: " ++ listed (type.ports.map inspectPort) ++
    ", params: " ++ listed (type.params.map inspectParam) ++ ", .. \x7d"

end ComponentType

/-- Component types under their full names. -/
structure Registry (C : Type) where
  /-- The types. -/
  types : Keyed (ComponentType C) := []

namespace Registry

variable {C : Type}

/-- The type of a full name. -/
def get? (registry : Registry C) (name : String) : Option (ComponentType C) :=
  Keyed.get? name registry.types

/-- Adds a type in place of a former one of the same name. -/
def register (registry : Registry C) (type : ComponentType C) : Registry C :=
  ⟨Keyed.put type.fullName type registry.types⟩

/-- The full names of all types, sorted. -/
def names (registry : Registry C) : List String := Keyed.sortedKeys registry.types

/-- A registry in words. -/
def inspect (registry : Registry C) : String :=
  "ElementRegistry \x7b types: " ++ ComponentType.listed (registry.names.map Text.quote) ++ " \x7d"

end Registry

end Rally
