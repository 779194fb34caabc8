/-!
# Configuration errors

Everything that can be wrong with a topology before a simulation starts, and the wording of each
complaint.
-/

namespace Rally

/-- Why no simulation can be built from a topology. -/
inductive ConfigError where
  /-- Two components share a name. -/
  | duplicateComponent (name : String)
  /-- Two links share a name. -/
  | duplicateLink (name : String)
  /-- A component is of a type that is not registered. -/
  | unknownComponentType (component type : String)
  /-- A link ends at a component that does not exist. -/
  | unknownComponent (link component : String)
  /-- A link ends at a port that the type of the component does not declare. -/
  | unknownPort (component port : String)
  /-- A port is attached to more than one link end. -/
  | portAlreadyLinked (component port : String)
  /-- Both ends of a link are the same port. -/
  | selfLink (link : String)
  /-- A text is not of the form `component.port`. -/
  | invalidEndpoint (text : String)
  /-- A component configures a port that no link is attached to. -/
  | unboundPort (component port : String)
  /-- A link is attached to a port that the wiring of its component excludes. -/
  | conflictingPort (component port other : String)
  /-- A link between two ranks has no latency. -/
  | zeroLatencyCrossRank (link : String)
  /-- A latency is no duration. -/
  | invalidLatency (link latency : String)
  /-- The value of a parameter cannot be read. -/
  | invalidParam (component key value : String)
  /-- A text is no topology; there is no wording where it is not even a YAML value. -/
  | unreadable (complaint : Option String)
  /-- A file cannot be read. -/
  | missingFile (complaint : String)
  deriving DecidableEq

/-- The wording of a configuration error. -/
def ConfigError.message : ConfigError → String
  | .duplicateComponent name => s!"component '{name}' is defined twice"
  | .duplicateLink name => s!"link '{name}' is defined twice"
  | .unknownComponentType component type => s!"component '{component}' has unknown type '{type}'"
  | .unknownComponent link component => s!"link '{link}' refers to unknown component '{component}'"
  | .unknownPort component port => s!"component '{component}' declares no port '{port}'"
  | .portAlreadyLinked component port =>
    s!"port '{component}.{port}' is attached to more than one link"
  | .selfLink link => s!"link '{link}' connects a port to itself"
  | .invalidEndpoint text => s!"invalid endpoint '{text}', expected 'component.port'"
  | .unboundPort component port => s!"failed to configure port '{port}' on component '{component}'"
  | .conflictingPort component port other =>
    s!"port '{component}.{port}' is wired but cannot be used together with '{other}'"
  | .zeroLatencyCrossRank link => s!"link '{link}' crosses ranks and must have a non-zero latency"
  | .invalidLatency link latency => s!"link '{link}' has invalid latency {latency}"
  | .invalidParam component key value =>
    s!"parameter '{key}' of component '{component}' has invalid value '{value}'"
  | .unreadable complaint => "failed to parse topology: " ++ complaint.getD "no YAML value"
  | .missingFile complaint => s!"failed to read topology: {complaint}"

end Rally
