import Rally.Number.Shortest
import Rally.Text.Quoted
/-!
# YAML values

A value is what a YAML text says, without places, anchors and styles. Numbers compare by kind:
an integer never equals a fraction, both zeros are one number, and a NaN equals itself. Mappings
compare without regard to the order of their entries.
-/

namespace Rally.Yaml

/-- A number of a YAML text. -/
inductive Number where
  /-- A whole number. -/
  | integer (n : Int)
  /-- A number written with a point, an exponent or a name. -/
  | float (x : Binary64)
  deriving DecidableEq, Inhabited

/-- What a YAML text says. -/
inductive Value where
  | null
  | bool (b : Bool)
  | number (n : Number)
  | string (text : String)
  | sequence (items : List Value)
  | mapping (entries : List (Value × Value))
  | tagged (tag : String) (value : Value)
  deriving Inhabited

namespace Number

/-- The text of a number. -/
def text : Number → String
  | .integer n => toString n
  | .float x =>
    if x.isNaN then ".nan"
    else if x.isInfinite then (if x.isNegative then "-.inf" else ".inf")
    else x.compact

/-- Whether two numbers are the same. -/
def same : Number → Number → Bool
  | .integer m, .integer n => m == n
  | .float x, .float y => x.sameNumber y || (x.isNaN && y.isNaN)
  | _, _ => false

end Number

namespace Value

mutual

/-- Whether two values are the same. -/
def same : Value → Value → Bool
  | .null, .null => true
  | .bool a, .bool b => a == b
  | .number m, .number n => m.same n
  | .string s, .string t => s == t
  | .sequence xs, .sequence ys => sameItems xs ys
  | .mapping xs, .mapping ys => xs.length == ys.length && sameEntries xs ys
  | .tagged t x, .tagged u y => t == u && same x y
  | _, _ => false
termination_by structural value => value

/-- Whether two sequences hold the same items. -/
def sameItems : List Value → List Value → Bool
  | [], [] => true
  | x :: xs, y :: ys => same x y && sameItems xs ys
  | _, _ => false
termination_by structural items => items

/-- Whether every entry of a mapping has an equal one among some others. -/
def sameEntries : List (Value × Value) → List (Value × Value) → Bool
  | [], _ => true
  | (key, value) :: rest, others =>
    others.any (fun (k, v) => same key k && same value v) && sameEntries rest others
termination_by structural entries => entries

end

mutual

/-- A value written out with the name of its kind, except for the plain keys of mappings. -/
def inspect : Value → String
  | .null => "Null"
  | .bool b => s!"Bool({b})"
  | .number n => s!"Number({n.text})"
  | .string s => "String(" ++ Text.quote s ++ ")"
  | .sequence items => "Sequence [" ++ inspectItems items ++ "]"
  | .mapping entries => "Mapping \x7b" ++ inspectEntries entries ++ "\x7d"
  | .tagged tag value =>
    "TaggedValue \x7b tag: !" ++ tag ++ ", value: " ++ inspect value ++ " \x7d"

/-- The items of a sequence, separated by commas. -/
def inspectItems : List Value → String
  | [] => ""
  | [item] => inspect item
  | item :: rest => inspect item ++ ", " ++ inspectItems rest

/-- The entries of a mapping, separated by commas. -/
def inspectEntries : List (Value × Value) → String
  | [] => ""
  | [(key, value)] => inspectKey key ++ ": " ++ inspect value
  | (key, value) :: rest =>
    inspectKey key ++ ": " ++ inspect value ++ ", " ++ inspectEntries rest

/-- A key of a mapping: truth values, numbers and texts stand for themselves. -/
def inspectKey : Value → String
  | .bool b => toString b
  | .number n => n.text
  | .string s => Text.quote s
  | key => inspect key

end

end Value

end Rally.Yaml
