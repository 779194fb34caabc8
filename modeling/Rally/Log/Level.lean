/-!
# Levels of log lines

Lines are ordered by how much they matter. A level admits all lines that matter at least as much.
-/

namespace Rally

/-- How much a log line matters. -/
inductive Level where
  | trace
  | debug
  | info
  | warn
  | error
  deriving DecidableEq, Inhabited

namespace Level

/-- The rank of a level, the most important one last. -/
def weight : Level → Nat
  | .trace => 0
  | .debug => 1
  | .info => 2
  | .warn => 3
  | .error => 4

/-- Whether lines of a level are shown down to another level. -/
def admits (lowest level : Level) : Bool := lowest.weight ≤ level.weight

/-- The name of a level. -/
def label : Level → String
  | .trace => "TRACE"
  | .debug => "DEBUG"
  | .info => "INFO"
  | .warn => "WARN"
  | .error => "ERROR"

/-- The terminal colour of a level. -/
def colour : Level → Nat
  | .trace => 36
  | .debug => 35
  | .info => 32
  | .warn => 33
  | .error => 31

/-- The level of a name in any case, or of a digit from one on. -/
def parse? (text : String) : Option Level :=
  match String.ofList (text.toList.map Char.toLower) with
  | "trace" | "5" => some .trace
  | "debug" | "4" => some .debug
  | "info" | "3" => some .info
  | "warn" | "2" => some .warn
  | "error" | "1" => some .error
  | _ => none

end Level

end Rally
