/-!
# Messages

A message carries a text or nothing. A component that is handed something it has no use for reports
a violation of its protocol.
-/

namespace Rally

/-- What travels over a link. -/
inductive Message where
  /-- A text. -/
  | text (payload : String)
  /-- Nothing but the fact that it was sent. -/
  | null
  deriving DecidableEq, Inhabited

/-- The kinds of messages, named in complaints. -/
inductive MessageKind where
  | text
  | null
  deriving DecidableEq

/-- The name of a kind. -/
def MessageKind.label : MessageKind → String
  | .text => "StringEvent"
  | .null => "NullEvent"

/-- How a component or its wiring broke the protocol of a link. -/
inductive Violation where
  /-- A message was not of the kind that its receiver accepts. -/
  | unexpectedKind (expected found : MessageKind)
  /-- A message arrived at a port that only sends, or that was not configured. -/
  | noHandler (port : String)
  /-- A message was sent on a port that was not configured. -/
  | unconfiguredPort (port : String)
  deriving DecidableEq

/-- The wording of a violation. -/
def Violation.message : Violation → String
  | .unexpectedKind expected found => s!"expected a {expected.label}, received a {found.label}"
  | .noHandler port => s!"received an event on port '{port}' which has no handler"
  | .unconfiguredPort port => s!"sent an event on unconfigured port '{port}'"

namespace Message

/-- The kind of a message. -/
def kind : Message → MessageKind
  | .text _ => .text
  | .null => .null

/-- The text of a message, which a message without one violates. -/
def payload : Message → Except Violation String
  | .text payload => .ok payload
  | .null => .error (.unexpectedKind .text .null)

end Message

end Rally
