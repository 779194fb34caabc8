import Rally.Text.Split
import Rally.Topology.ConfigError
/-!
# Endpoints

An endpoint names a port on a component, written `component.port`. Component names may contain
dots themselves, so the port is what stands behind the last dot.
-/

namespace Rally

/-- A port on a named component. -/
structure Endpoint where
  /-- The name of the component. -/
  component : String
  /-- The name of the port. -/
  port : String
  deriving DecidableEq, Inhabited

namespace Endpoint

/-- The text of an endpoint. -/
def text (endpoint : Endpoint) : String := endpoint.component ++ "." ++ endpoint.port

/-- Reads an endpoint, of which neither part is empty. -/
def parse (text : String) : Except ConfigError Endpoint :=
  match Text.splitLast '.' text.toList with
  | some (component, port) =>
    if component.isEmpty || port.isEmpty then .error (.invalidEndpoint text)
    else .ok ⟨String.ofList component, String.ofList port⟩
  | none => .error (.invalidEndpoint text)

end Endpoint

end Rally
