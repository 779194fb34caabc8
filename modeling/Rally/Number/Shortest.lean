import Rally.Number.Binary64
/-!
# Shortest decimals

The fewest digits that read back as the same double are found on decimal grids of falling width:
the first grid that has a neighbour of the value inside the interval of reals rounding to it
wins, and of two such neighbours the nearer one. Two layouts write these digits: one without
exponents, and one that always shows a point or an exponent.
-/

namespace Rally

namespace Binary64

/-- A positive decimal `digits * 10 ^ power`. -/
structure Decimal where
  /-- The significant digits as a number. -/
  digits : Nat
  /-- The power of ten of the last digit. -/
  power : Int
  deriving DecidableEq

/-- Which neighbour is taken when the value lies exactly between two shortest decimals. -/
inductive TieRule where
  /-- The neighbour with an even last digit. -/
  | toEven
  /-- The neighbour farther from zero. -/
  | away

/-- The shortest decimal of a finite nonzero magnitude on the grid `10 ^ power`, if the grid is
fine enough. Lengths are counted in quarters of the last binary place, so that the bounds of the
rounding interval are whole: they belong to it when the significand is even. -/
def onGrid (tie : TieRule) (x : Binary64) (power : Int) : Option Decimal :=
  let place := x.exponent - 2
  let value := 4 * x.significand
  let below := if x.fractionField = 0 ∧ 1 < x.exponentField then 1 else 2
  let scale := Nat.pow 10 (-power).toNat <<< place.toNat
  let step := Nat.pow 10 power.toNat <<< (-place).toNat
  let inside (candidate : Nat) : Bool :=
    if x.significand % 2 = 0 then
      decide ((value - below) * scale ≤ candidate * step ∧ candidate * step ≤ (value + 2) * scale)
    else
      decide ((value - below) * scale < candidate * step ∧ candidate * step < (value + 2) * scale)
  let lower := value * scale / step
  match inside lower, inside (lower + 1) with
  | false, false => none
  | true, false => some ⟨lower, power⟩
  | false, true => some ⟨lower + 1, power⟩
  | true, true =>
    let twice := 2 * (value * scale)
    let middle := (2 * lower + 1) * step
    if twice < middle then some ⟨lower, power⟩
    else if middle < twice then some ⟨lower + 1, power⟩
    else match tie with
      | .toEven => some ⟨lower + lower % 2, power⟩
      | .away => some ⟨lower + 1, power⟩

/-- The first hit on grids of falling width. -/
def firstGrid (tie : TieRule) (x : Binary64) : Nat → Int → Decimal
  | 0, power => ⟨x.significand, power⟩
  | steps + 1, power => (onGrid tie x power).getD (firstGrid tie x steps (power - 1))

/-- The shortest decimal that reads back as a finite nonzero magnitude. The search starts on a
grid wider than the value; seventeen digits always suffice. -/
def shortest (tie : TieRule) (x : Binary64) : Decimal :=
  let magnitude : Int := (Nat.log2 x.significand : Int) + x.exponent + 1
  firstGrid tie x 24 ((magnitude * 30103).fdiv 100000 + 1)

/-- A minus in front of negative numbers. -/
def signed (x : Binary64) (text : String) : String := if x.isNegative then "-" ++ text else text

/-- A run of zeros. -/
def zeros (count : Nat) : String := String.ofList (List.replicate count '0')

/-- Digits with a point after the first `whole` of them, or zeros where digits are missing. -/
def pointed (digits : List Char) (whole : Int) : String :=
  if 0 < whole then
    String.ofList (digits.take whole.toNat) ++ "." ++ String.ofList (digits.drop whole.toNat)
  else "0." ++ zeros (-whole).toNat ++ String.ofList digits

/-- The text without an exponent and, for whole numbers, without a point. -/
def positional (x : Binary64) : String :=
  if x.isNaN then "NaN"
  else if x.isInfinite then x.signed "inf"
  else if x.isZero then x.signed "0"
  else
    let decimal := x.shortest .away
    let digits := Nat.toDigits 10 decimal.digits
    x.signed <|
      if 0 ≤ decimal.power then String.ofList digits ++ zeros decimal.power.toNat
      else pointed digits (digits.length + decimal.power)

/-- The positional text, with a fraction `.0` for finite whole numbers. -/
def positionalWithPoint (x : Binary64) : String :=
  let text := x.positional
  if x.isNaN || x.isInfinite || text.toList.contains '.' then text else text ++ ".0"

/-- The text of a finite number that always shows a point or an exponent: positional while the
point falls among the first sixteen digits or at most four zeros behind it. -/
def compact (x : Binary64) : String :=
  if x.isZero then x.signed "0.0"
  else
    let decimal := x.shortest .toEven
    let digits := Nat.toDigits 10 decimal.digits
    let whole : Int := digits.length + decimal.power
    x.signed <|
      if 0 ≤ decimal.power ∧ whole ≤ 16 then
        String.ofList digits ++ zeros decimal.power.toNat ++ ".0"
      else if -5 < whole ∧ whole ≤ 16 then pointed digits whole
      else
        let mantissa := match digits with
          | [digit] => digit.toString
          | digits => pointed digits 1
        mantissa ++ "e" ++ toString (whole - 1)

end Binary64

end Rally
