import Rally.Number.Decimal
import Rally.Number.Integer
import Rally.Yaml.Token
import Rally.Yaml.Value
/-!
# The values of plain scalars

A plain scalar without a tag is a null, a truth value, an integer, a number with a fraction or a
text, in this order. Numbers with superfluous leading zeros are texts. A tag of the core schema asks
for one of these kinds.
-/

namespace Rally.Yaml

namespace Scalar

/-- The spellings of a null. -/
def isNull (text : String) : Bool := ["null", "Null", "NULL", "~"].contains text

/-- The truth value of a spelling. -/
def bool? (text : String) : Option Bool :=
  if ["true", "True", "TRUE"].contains text then some true
  else if ["false", "False", "FALSE"].contains text then some false
  else none

/-- A text behind its first characters, if it begins with them. -/
def behind? : List Char → List Char → Option (List Char)
  | [], text => some text
  | c :: start, d :: text => if c = d then behind? start text else none
  | _ :: _, [] => none

/-- Whether a text begins with a sign. -/
def isSigned : List Char → Bool
  | '+' :: _ => true
  | '-' :: _ => true
  | _ => false

/-- Digits behind a superfluous zero, with a sign or without, are no number. -/
def isPadded (text : List Char) : Bool :=
  match if isSigned text then text.tail else text with
  | '0' :: digit :: rest => (digit :: rest).all Char.isDigit
  | _ => false

/-- The marks of radixes other than ten. -/
def radixes : List (List Char × Nat) := [(['0', 'x'], 16), (['0', 'o'], 8), (['0', 'b'], 2)]

/-- Reads a number between `-below` and `above` in a radix. -/
def readRadix? (radix below above : Nat) (digits : List Char) : Option Int :=
  (Integer.read radix below above (String.ofList digits)).toOption

/-- Reads a number of a marked radix, without a sign behind the mark. -/
def marked? (below above : Nat) (sign text : List Char) : Option Int :=
  radixes.findSome? fun (mark, radix) =>
    (behind? mark text).bind fun digits => readRadix? radix below above (sign ++ digits)

/-- Reads an integer without a minus that needs at most some bits. -/
def unsigned? (bits : Nat) (text : List Char) : Option Int :=
  let body := (behind? ['+'] text).getD text
  let above := (1 <<< bits) - 1
  let refused := radixes.any fun (mark, _) => (behind? mark body).any isSigned
  if refused then none
  else match marked? 0 above [] body with
    | some n => some n
    | none => if isSigned body || isPadded text then none else readRadix? 10 0 above body

/-- Reads an integer with a minus that needs at most some bits. -/
def negative? (bits : Nat) (text : List Char) : Option Int :=
  let below := 1 <<< (bits - 1)
  match (behind? ['-'] text).bind (marked? below (below - 1) ['-']) with
  | some n => some n
  | none => if isPadded text then none else readRadix? 10 below (below - 1) text

/-- Reads an integer of at most some bits. -/
def integer? (bits : Nat) (text : List Char) : Option Int :=
  (unsigned? bits text).or (negative? bits text)

/-- Reads a finite decimal, or the name of an infinity or of a NaN behind a point. -/
def float? (text : String) : Option Binary64 :=
  let body := (behind? ['+'] text.toList).getD text.toList
  if (behind? ['+'] text.toList).any isSigned then none
  else if [".inf", ".Inf", ".INF"].contains (String.ofList body) then
    some (Binary64.infinity false)
  else if ["-.inf", "-.Inf", "-.INF"].contains text then some (Binary64.infinity true)
  else if [".nan", ".NaN", ".NAN"].contains text then some (Binary64.nan false)
  else
    (Binary64.parse? (String.ofList body)).filter fun x => !x.isNaN && !x.isInfinite

end Scalar

/-- What a scalar says. -/
inductive Scalar where
  | null
  | bool (b : Bool)
  | number (n : Number)
  | string (text : String)
  /-- An integer that needs more than 64 bits. -/
  | wide
  /-- A text that is not of the kind its tag asks for. -/
  | mismatch (text expected : String)
  deriving DecidableEq

namespace Scalar

/-- The value that a scalar stands for, if there is one. -/
def value? : Scalar → Option Value
  | .null => some .null
  | .bool b => some (.bool b)
  | .number n => some (.number n)
  | .string text => some (.string text)
  | .wide => none
  | .mismatch .. => none

/-- An integer of 64 bits, or one of 128 bits, which is too wide. -/
def ofInteger? (text : String) : Option Scalar :=
  match integer? 64 text.toList with
  | some n => some (.number (.integer n))
  | none => (integer? 128 text.toList).map fun _ => .wide

/-- The meaning of a plain scalar without a tag. -/
def ofPlain (text : String) : Scalar :=
  if text.isEmpty || isNull text then .null
  else match bool? text, ofInteger? text with
    | some b, _ => .bool b
    | none, some n => n
    | none, none =>
      if isPadded text.toList then .string text
      else match float? text with
        | some x => .number (.float x)
        | none => .string text

/-- The tag of a kind of the core schema. -/
def coreTag (kind : String) : String := "tag:yaml.org,2002:" ++ kind

/-- The meaning of a scalar. A tag of the core schema decides the kind, any other global tag makes
it a text, and a local one leaves the choice to the spelling. -/
def resolve (tag : Option String) (style : ScalarStyle) (text : String) : Scalar :=
  let unquoted := if style = .plain then ofPlain text else .string text
  match tag with
  | none => unquoted
  | some tag =>
    if tag = coreTag "bool" then ((bool? text).map bool).getD (.mismatch text "a boolean")
    else if tag = coreTag "int" then (ofInteger? text).getD (.mismatch text "an integer")
    else if tag = coreTag "float" then
      ((float? text).map fun x => .number (.float x)).getD (.mismatch text "a float")
    else if tag = coreTag "null" then
      if isNull text then .null else .mismatch text "null"
    else if tag.startsWith "!" then unquoted
    else .string text

end Scalar

end Rally.Yaml
