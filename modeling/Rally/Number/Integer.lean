/-!
# Reading integers

An integer is an optional sign and digits of a radix. The characters are taken from the left, and
the first one that is no digit, or that makes the number leave the range, decides the error.
-/

namespace Rally

/-- Why a text is no integer of a range. -/
inductive IntegerError where
  /-- There are no characters at all. -/
  | empty
  /-- Some character is no digit, or there is only a sign. -/
  | invalidDigit
  /-- The number lies above the range. -/
  | tooLarge
  /-- The number lies below the range. -/
  | tooSmall
  deriving DecidableEq

/-- The wording of an integer error. -/
def IntegerError.message : IntegerError → String
  | .empty => "cannot parse integer from empty string"
  | .invalidDigit => "invalid digit found in string"
  | .tooLarge => "number too large to fit in target type"
  | .tooSmall => "number too small to fit in target type"

namespace Integer

/-- The value of a digit of a radix up to sixteen, in either case. -/
def digitValue? (radix : Nat) (digit : Char) : Option Nat :=
  let value? :=
    if '0' ≤ digit ∧ digit ≤ '9' then some (digit.toNat - '0'.toNat)
    else if 'a' ≤ digit ∧ digit ≤ 'f' then some (digit.toNat - 'a'.toNat + 10)
    else if 'A' ≤ digit ∧ digit ≤ 'F' then some (digit.toNat - 'A'.toNat + 10)
    else none
  value?.filter (· < radix)

/-- Reads digits behind a value already read, refusing the first step above the bound. -/
def readDigits (radix bound : Nat) (beyond : IntegerError) :
    Nat → List Char → Except IntegerError Nat
  | value, [] => .ok value
  | value, digit :: rest =>
    match digitValue? radix digit with
    | none => .error .invalidDigit
    | some d =>
      if bound < value * radix + d then .error beyond
      else readDigits radix bound beyond (value * radix + d) rest

/-- Reads a number of a radix between `-below` and `above`; a minus is a digit error where the
range holds no negative numbers. -/
def read (radix below above : Nat) (text : String) : Except IntegerError Int :=
  match text.toList with
  | [] => .error .empty
  | ['+'] => .error .invalidDigit
  | ['-'] => .error .invalidDigit
  | '+' :: digits => (readDigits radix above .tooLarge 0 digits).map Int.ofNat
  | '-' :: digits =>
    if below = 0 then .error .invalidDigit
    else (readDigits radix below .tooSmall 0 digits).map fun n => -(n : Int)
  | digits => (readDigits radix above .tooLarge 0 digits).map Int.ofNat

/-- Reads an unsigned number of some bits. -/
def readUnsigned (bits : Nat) (text : String) : Except IntegerError Nat :=
  (read 10 0 ((1 <<< bits) - 1) text).map Int.toNat

/-- Reads a signed number of some bits. -/
def readSigned (bits : Nat) (text : String) : Except IntegerError Int :=
  read 10 (1 <<< (bits - 1)) ((1 <<< (bits - 1)) - 1) text

end Integer

end Rally
