/-!
# Binary64 numbers

A double is its 64 bits: a sign, an eleven bit exponent and a fraction of 52 bits. A finite one
has the exact magnitude `significand * 2 ^ exponent`, and `ofRatio` rounds an exact quotient to the
nearest double, a tie to the even one. Nothing here rests on floating point arithmetic.
-/

namespace Rally

/-- A binary64 number, told apart by its bits. -/
structure Binary64 where
  /-- The interchange encoding. -/
  bits : UInt64
  deriving DecidableEq

namespace Binary64

instance : Inhabited Binary64 := ⟨⟨0⟩⟩

/-- The sign bit, set for negative numbers and negative zero. -/
def isNegative (x : Binary64) : Bool := decide (1 <<< 63 ≤ x.bits.toNat)

/-- The eleven exponent bits. -/
def exponentField (x : Binary64) : Nat := (x.bits.toNat >>> 52) % 2048

/-- The 52 fraction bits. -/
def fractionField (x : Binary64) : Nat := x.bits.toNat % (1 <<< 52)

/-- Every encoding with a full exponent and some fraction is no number. -/
def isNaN (x : Binary64) : Bool := x.exponentField == 2047 && x.fractionField != 0

/-- A full exponent without a fraction is an infinity. -/
def isInfinite (x : Binary64) : Bool := x.exponentField == 2047 && x.fractionField == 0

/-- Both zeros have neither exponent nor fraction. -/
def isZero (x : Binary64) : Bool := x.exponentField == 0 && x.fractionField == 0

/-- The integer factor of a finite number's magnitude. -/
def significand (x : Binary64) : Nat :=
  if x.exponentField = 0 then x.fractionField else (1 <<< 52) + x.fractionField

/-- The power of two of a finite number's magnitude. -/
def exponent (x : Binary64) : Int :=
  if x.exponentField = 0 then -1074 else (x.exponentField : Int) - 1075

/-- Numeric equality: both zeros are equal and a NaN equals nothing. -/
def sameNumber (x y : Binary64) : Bool :=
  !x.isNaN && !y.isNaN && (x == y || (x.isZero && y.isZero))

/-- The double with a sign and the 63 bits below it. -/
def ofMagnitude (negative : Bool) (magnitude : Nat) : Binary64 :=
  ⟨UInt64.ofNat ((if negative then 1 <<< 63 else 0) + magnitude)⟩

/-- The infinity of a sign. -/
def infinity (negative : Bool) : Binary64 := ofMagnitude negative (2047 <<< 52)

/-- The zero of a sign. -/
def zero (negative : Bool) : Binary64 := ofMagnitude negative 0

/-- The quiet NaN of a sign. -/
def nan (negative : Bool) : Binary64 := ofMagnitude negative ((2047 <<< 52) + (1 <<< 51))

/-- The number one. -/
def one : Binary64 := ofMagnitude false (1023 <<< 52)

/-- The quotient rounded to the nearest integer, a tie to the even one. -/
def roundedQuotient (num den : Nat) : Nat :=
  let quotient := num / den
  let remainder := num % den
  if 2 * remainder < den then quotient
  else if den < 2 * remainder then quotient + 1
  else quotient + quotient % 2

/-- The quotient `num / (den * 2 ^ power)`, rounded. -/
def scaledQuotient (num den : Nat) (power : Int) : Nat :=
  if 0 ≤ power then roundedQuotient num (den <<< power.toNat)
  else roundedQuotient (num <<< (-power).toNat) den

/-- The power of two of the last place of a double near `num / den`: it leaves 53 bits before the
point, or is the last place of the smallest doubles. -/
def lastPlace (num den : Nat) : Int :=
  let guess : Int := (Nat.log2 num : Int) - Nat.log2 den - 52
  let short : Bool :=
    if 0 ≤ guess then decide (num < den <<< (guess.toNat + 52))
    else decide (num <<< (-guess).toNat < den <<< 52)
  let place := if short then guess - 1 else guess
  if place < -1074 then -1074 else place

/-- The double nearest to `num / den`, a tie going to the even significand. A carry out of the
significand raises the exponent field by itself, and past the last exponent lies the infinity. -/
def ofRatio (negative : Bool) (num den : Nat) : Binary64 :=
  if num = 0 ∨ den = 0 then zero negative
  else
    let place := lastPlace num den
    let rounded := scaledQuotient num den place
    let magnitude :=
      if rounded < 1 <<< 52 then rounded
      else ((place + 1075).toNat <<< 52) + (rounded - (1 <<< 52))
    if 2047 <<< 52 ≤ magnitude then infinity negative else ofMagnitude negative magnitude

/-- The double nearest to a natural number. -/
def ofNat (n : Nat) : Binary64 := ofRatio false n 1

/-- The numerator of a finite magnitude over `2 ^ 1074`. -/
def units (x : Binary64) : Nat := x.significand <<< (x.exponent + 1074).toNat

/-- The sum of two finite magnitudes, rounded once. -/
def addMagnitudes (x y : Binary64) : Binary64 := ofRatio false (x.units + y.units) (1 <<< 1074)

end Binary64

end Rally
