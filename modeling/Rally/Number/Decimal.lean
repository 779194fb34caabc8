import Rally.Number.Binary64
/-!
# Reading decimal numbers

The grammar of a decimal is a sign, digits with at most one point and at least one digit, and an
exponent. `inf`, `infinity` and `nan` are accepted in any case. The value read is the double nearest
to the decimal.
-/

namespace Rally

namespace Binary64

/-- The value of a list of decimal digits. -/
def digitsValue (digits : List Char) : Nat :=
  digits.foldl (fun value digit => value * 10 + (digit.toNat - '0'.toNat)) 0

/-- The double nearest to `digits * 10 ^ power`. Powers far outside of the range of doubles are
decided by the number of digits alone. -/
def ofDecimal (negative : Bool) (digits : Nat) (power : Int) : Binary64 :=
  let leading : Int := power + (Nat.toDigits 10 digits).length
  if digits = 0 ∨ leading < -330 then zero negative
  else if 310 < leading then infinity negative
  else if 0 ≤ power then ofRatio negative (digits * Nat.pow 10 power.toNat) 1
  else ofRatio negative digits (Nat.pow 10 (-power).toNat)

/-- Splits off a leading sign; true stands for a minus. -/
def splitSign : List Char → Bool × List Char
  | '-' :: rest => (true, rest)
  | '+' :: rest => (false, rest)
  | rest => (false, rest)

/-- Reads what follows the digits of a decimal: nothing, or an exponent with at least one digit. -/
def readExponent : List Char → Option Int
  | [] => some 0
  | mark :: rest =>
    if mark == 'e' || mark == 'E' then
      let (negative, digits) := splitSign rest
      if digits.isEmpty || !digits.all Char.isDigit then none
      else if negative then some (-(digitsValue digits : Int)) else some (digitsValue digits)
    else none

/-- Reads digits, a point, digits and an exponent, of which one run of digits may be empty. -/
def readDecimal (negative : Bool) (text : List Char) : Option Binary64 :=
  let whole := text.takeWhile Char.isDigit
  let (fraction, rest) := match text.dropWhile Char.isDigit with
    | '.' :: rest => (rest.takeWhile Char.isDigit, rest.dropWhile Char.isDigit)
    | rest => ([], rest)
  if whole.isEmpty && fraction.isEmpty then none
  else
    (readExponent rest).map fun power =>
      ofDecimal negative (digitsValue (whole ++ fraction)) (power - fraction.length)

/-- Reads a decimal number or the name of an infinity or of a NaN. -/
def parse? (text : String) : Option Binary64 :=
  let (negative, body) := splitSign text.toList
  let name := String.ofList (body.map Char.toLower)
  if name == "inf" || name == "infinity" then some (infinity negative)
  else if name == "nan" then some (nan negative)
  else readDecimal negative body

end Binary64

end Rally
