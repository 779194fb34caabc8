import Rally.Yaml.Cursor
/-!
# YAML tokens

A token is an indicator, a property of a node, or the text of a scalar, with the places where it
begins and ends. The ends of blocks are tokens of their own, found from the indentation.
-/

namespace Rally.Yaml

/-- How a scalar is written. -/
inductive ScalarStyle where
  /-- Without marks around it. -/
  | plain
  /-- Between single quotation marks. -/
  | singleQuoted
  /-- Between double quotation marks. -/
  | doubleQuoted
  /-- As a block whose line ends are kept. -/
  | literal
  /-- As a block whose line ends fold into spaces. -/
  | folded
  deriving DecidableEq, Inhabited

/-- What a token says. -/
inductive TokenKind where
  | streamEnd
  | version (major minor : Nat)
  | tagHandle (handle start : String)
  | documentStart
  | documentEnd
  | blockSequenceStart
  | blockMappingStart
  | blockEnd
  | flowSequenceStart
  | flowSequenceEnd
  | flowMappingStart
  | flowMappingEnd
  | blockEntry
  | flowEntry
  | key
  | value
  | alias (name : String)
  | anchor (name : String)
  | tag (handle rest : String)
  | scalar (style : ScalarStyle) (text : String)
  deriving DecidableEq

/-- A token and the places around it. -/
structure Token where
  /-- What it says. -/
  kind : TokenKind
  /-- Where it begins. -/
  start : Mark
  /-- The place behind it. -/
  stop : Mark

end Rally.Yaml
