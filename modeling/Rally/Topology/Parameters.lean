import Rally.Keyed
import Rally.Number.Decimal
import Rally.Number.Integer
import Rally.Text.Blank
import Rally.Text.Split
import Rally.Time.Instant
import Rally.Topology.Endpoint
/-!
# Parameters of a component

Parameters are texts under keys, and are read as values of a type only when a component asks for
them. One pair of quotation marks around a text is not part of it.
-/

namespace Rally

/-- The parameters of one component. -/
structure Parameters where
  /-- The name of the component. -/
  owner : String
  /-- The texts, with their quotation marks. -/
  entries : Keyed String := []

namespace Parameters

/-- Sets a parameter. -/
def insert (params : Parameters) (key value : String) : Parameters :=
  { params with entries := Keyed.put key value params.entries }

/-- The text set for a parameter, with its quotation marks. -/
def raw? (params : Parameters) (key : String) : Option String := Keyed.get? key params.entries

/-- The entry that a line of the form `key = value` stands for. -/
def entryOfLine? (line : List Char) : Option (String × String) :=
  (Text.splitFirst '=' line).map fun (key, value) =>
    (String.ofList (Text.trim key), String.ofList (Text.trim value))

/-- Sets the parameters of a text, a line for each; lines of any other form say nothing. -/
def parse (params : Parameters) (text : String) : Parameters :=
  ((Text.lines text.toList).filterMap entryOfLine?).foldl
    (fun params (key, value) => params.insert key value) params

/-- Removes one pair of quotation marks around a text. -/
def unquote (text : String) : String :=
  match text.toList with
  | '"' :: rest =>
    if rest.getLast? = some '"' then String.ofList rest.dropLast else text
  | _ => text

/-- The text of a parameter, without quotation marks around it. -/
def get? (params : Parameters) (key : String) : Option String := (params.raw? key).map unquote

/-- Whether a parameter is set. -/
def contains (params : Parameters) (key : String) : Bool := (params.raw? key).isSome

/-- Reads a parameter, or takes a default where it is not set. -/
def find {α : Type} (params : Parameters) (key : String) (read? : String → Option α)
    (default : α) : Except ConfigError α :=
  match params.get? key with
  | none => .ok default
  | some text =>
    match read? text with
    | some value => .ok value
    | none => .error (.invalidParam params.owner key text)

/-- Reads a natural number of some bits. -/
def natural? (bits : Nat) (text : String) : Option Nat := (Integer.readUnsigned bits text).toOption

/-- Reads an integer of some bits. -/
def integer? (bits : Nat) (text : String) : Option Int := (Integer.readSigned bits text).toOption

/-- Reads a truth value. -/
def bool? (text : String) : Option Bool :=
  if text = "true" then some true else if text = "false" then some false else none

/-- Reads an endpoint. -/
def endpoint? (text : String) : Option Endpoint := (Endpoint.parse text).toOption

end Parameters

end Rally
