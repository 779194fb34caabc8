import Rally.Topology.Parameters
/-!
# Numbers as texts

The digits of a number are read back as this number, as long as it fits. So is the text of a parameter that
is a number, since there are no quotation marks around it.
-/

namespace Rally

namespace Integer

/-- A decimal digit has its value. -/
theorem digitValue?_digitChar {digit : Nat} (small : digit < 10) :
    digitValue? 10 (Nat.digitChar digit) = some digit := by
  revert small
  revert digit
  decide

/-- The digits of a number within the bound are read as this number. -/
theorem readDigits_toDigits {bound : Nat} {beyond : IntegerError} {number : Nat}
    (fits : number ≤ bound) (rest : List Char) :
    readDigits 10 bound beyond 0 (Nat.toDigits 10 number ++ rest) =
      readDigits 10 bound beyond number rest := by
  induction number using Nat.strongRecOn generalizing rest with
  | ind number ih =>
    by_cases small : number < 10
    · rw [Nat.toDigits_of_lt_base small, List.singleton_append, readDigits,
        digitValue?_digitChar small]
      simp only [Nat.zero_mul, Nat.zero_add, if_neg (Nat.not_lt.mpr fits)]
    · have shorter : number / 10 < number := Nat.div_lt_self (by omega) (by decide)
      have whole : number / 10 * 10 + number % 10 = number := by omega
      rw [Nat.toDigits_of_base_le (by decide) (by omega), List.append_assoc,
        ih _ shorter (by omega), List.singleton_append, readDigits,
        digitValue?_digitChar (Nat.mod_lt _ (by decide))]
      simp only [whole, if_neg (Nat.not_lt.mpr fits)]

/-- The text of a number consists of its digits. -/
theorem toList_toString (number : Nat) : (toString number).toList = Nat.toDigits 10 number := by
  rw [Nat.toString_eq_repr, Nat.repr_eq_ofList_toDigits, String.toList_ofList]

/-- A number within the bound is read from its text. -/
theorem read_toString {below above number : Nat} (fits : number ≤ above) :
    read 10 below above (toString number) = .ok (number : Int) := by
  have reads := @readDigits_toDigits _ .tooLarge _ fits []
  rw [List.append_nil, readDigits] at reads
  have plain : ∀ c ∈ Nat.toDigits 10 number, c.isDigit = true :=
    fun c inside => Nat.isDigit_of_mem_toDigits (by decide) (by decide) inside
  have some : Nat.toDigits 10 number ≠ [] := Nat.toDigits_ne_nil
  rw [read, toList_toString]
  split
  · next none => exact absurd none some
  · next sign =>
    rw [sign] at plain
    exact absurd (plain '+' List.mem_cons_self) (by decide)
  · next sign =>
    rw [sign] at plain
    exact absurd (plain '-' List.mem_cons_self) (by decide)
  · next _ sign =>
    rw [sign] at plain
    exact absurd (plain '+' List.mem_cons_self) (by decide)
  · next _ sign =>
    rw [sign] at plain
    exact absurd (plain '-' List.mem_cons_self) (by decide)
  · rw [reads]
    rfl

/-- A number below the bound of its bits is read from its text. -/
theorem readUnsigned_toString {bits number : Nat} (fits : number < 1 <<< bits) :
    readUnsigned bits (toString number) = .ok number := by
  rw [readUnsigned, read_toString (Nat.le_sub_one_of_lt fits)]
  rfl

/-- Only the digit of zero is a zero. -/
theorem digitChar_ne_zero {digit : Nat} (positive : 0 < digit) (small : digit < 10) :
    Nat.digitChar digit ≠ '0' := by
  revert positive
  revert small
  revert digit
  decide

/-- The digits of a positive number begin with another digit than zero. -/
theorem head?_toDigits {number : Nat} (positive : 0 < number) :
    (Nat.toDigits 10 number).head? ≠ some '0' := by
  induction number using Nat.strongRecOn with
  | ind number ih =>
    by_cases small : number < 10
    · rw [Nat.toDigits_of_lt_base small, List.head?_cons, Ne, Option.some.injEq]
      exact digitChar_ne_zero positive small
    · have shorter : number / 10 < number := Nat.div_lt_self positive (by decide)
      have first := ih _ shorter (by omega)
      rw [Nat.toDigits_of_base_le (by decide) (by omega), List.head?_append]
      cases digits : (Nat.toDigits 10 (number / 10)).head? with
      | none => exact absurd (List.head?_eq_none_iff.mp digits) Nat.toDigits_ne_nil
      | some digit => rwa [digits] at first

/-- Different numbers have different texts. -/
theorem toString_injective : Function.Injective (toString : Nat → String) := by
  intro first second same
  have fits {number : Nat} (few : number ≤ first + second) : number < 1 <<< (first + second) := by
    rw [Nat.shiftLeft_eq, Nat.one_mul]
    exact Nat.lt_of_le_of_lt few Nat.lt_two_pow_self
  have one := readUnsigned_toString (fits (Nat.le_add_right first second))
  rw [same, readUnsigned_toString (fits (Nat.le_add_left second first))] at one
  exact (Except.ok.inj one).symm

end Integer

namespace Parameters

/-- There are no quotation marks around a number. -/
theorem unquote_toString (number : Nat) : unquote (toString number) = toString number := by
  rw [unquote]
  split
  · next rest quoted =>
    rw [Integer.toList_toString] at quoted
    have plain := Nat.isDigit_of_mem_toDigits (b := 10) (n := number) (c := '"') (by decide)
      (by decide) (quoted ▸ List.mem_cons_self)
    exact absurd plain (by decide)
  · rfl

/-- A parameter that is set to the text of a number is read as this number, as long as it fits. -/
theorem find_of_toString {params : Parameters} {key : String} {bits number default : Nat}
    (raw : params.raw? key = some (toString number)) (fits : number < 1 <<< bits) :
    params.find key (natural? bits) default = .ok number := by
  have text : params.get? key = some (toString number) := by
    rw [get?, raw, Option.map_some, unquote_toString]
  rw [find, text]
  simp only [natural?, Integer.readUnsigned_toString fits]
  rfl

end Parameters

end Rally
