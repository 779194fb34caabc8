import Rally.Proofs.Number.Decimals
import Rally.Yaml.Scalar
/-!
# Numbers as scalars

The text of a number is read as this number where an integer is asked for. Whatever the tag and the style of a
scalar, it means something that its characters can mean (`Scalar.isMeaning_resolve`): a scalar that means a number
with a fraction is read as this one where such a number is asked for, and a text is made of its own characters.
-/

namespace Rally.Yaml.Scalar

/-- A text does not begin with characters of which it lacks one. -/
theorem behind?_eq_none {start text : List Char} {c : Char} (among : c ∈ start) (lacks : c ∉ text) :
    behind? start text = none := by
  induction start generalizing text with
  | nil => exact absurd among List.not_mem_nil
  | cons first start ih =>
    cases text with
    | nil => rfl
    | cons d text =>
      rw [behind?]
      split
      · next same =>
        refine ih ((List.mem_cons.mp among).resolve_left fun first => lacks ?_)
          (mt (List.mem_cons_of_mem _) lacks)
        rw [first, same]
        exact List.mem_cons_self
      · rfl

/-- A character that is no digit is not among the digits of a number. -/
theorem notMem_toDigits (number : Nat) {c : Char} (other : c.isDigit = false) :
    c ∉ Nat.toDigits 10 number := fun inside =>
  Bool.false_ne_true
    (other.symm.trans (Nat.isDigit_of_mem_toDigits (by decide) (by decide) inside))

/-- The digits of a number have no sign. -/
theorem isSigned_toDigits (number : Nat) : isSigned (Nat.toDigits 10 number) = false := by
  rw [isSigned.eq_def]
  split
  · next digits =>
    exact absurd (digits ▸ List.mem_cons_self) (notMem_toDigits number (c := '+') (by decide))
  · next digits =>
    exact absurd (digits ▸ List.mem_cons_self) (notMem_toDigits number (c := '-') (by decide))
  · rfl

/-- The digits of a number have no superfluous zeros in front. -/
theorem isPadded_toDigits (number : Nat) : isPadded (Nat.toDigits 10 number) = false := by
  rcases Nat.eq_zero_or_pos number with rfl | positive
  · decide
  · rw [isPadded, isSigned_toDigits, if_neg Bool.false_ne_true]
    split
    · next digits =>
      exact absurd (congrArg List.head? digits) (Integer.head?_toDigits positive)
    · rfl

/-- The digits of a number are not marked with a radix. -/
theorem behind?_toDigits (number : Nat) {mark : List Char} {radix : Nat}
    (among : (mark, radix) ∈ radixes) : behind? mark (Nat.toDigits 10 number) = none := by
  simp only [radixes, List.mem_cons, Prod.mk.injEq, List.not_mem_nil, or_false] at among
  rcases among with ⟨rfl, -⟩ | ⟨rfl, -⟩ | ⟨rfl, -⟩
  · exact behind?_eq_none (c := 'x') (by decide) (notMem_toDigits number (by decide))
  · exact behind?_eq_none (c := 'o') (by decide) (notMem_toDigits number (by decide))
  · exact behind?_eq_none (c := 'b') (by decide) (notMem_toDigits number (by decide))

/-- A number of at most some bits is read from its text. -/
theorem unsigned?_toString {bits number : Nat} (fits : number < 1 <<< bits) :
    unsigned? bits (toString number).toList = some (number : Int) := by
  have plus : behind? ['+'] (Nat.toDigits 10 number) = none :=
    behind?_eq_none List.mem_cons_self (notMem_toDigits number (by decide))
  have allowed : (radixes.any fun radix =>
      (behind? radix.1 (Nat.toDigits 10 number)).any isSigned) = false := by
    rw [List.any_eq_false]
    rintro ⟨mark, radix⟩ among
    dsimp only
    rw [behind?_toDigits number among]
    exact Bool.false_ne_true
  have unmarked : marked? 0 ((1 <<< bits) - 1) [] (Nat.toDigits 10 number) = none := by
    rw [marked?, List.findSome?_eq_none_iff]
    rintro ⟨mark, radix⟩ among
    dsimp only
    rw [behind?_toDigits number among]
    rfl
  have digits : String.ofList (Nat.toDigits 10 number) = toString number := by
    rw [← Integer.toList_toString, String.ofList_toList]
  rw [unsigned?, Integer.toList_toString, plus, Option.getD_none, allowed, if_neg Bool.false_ne_true,
    unmarked]
  simp only [isSigned_toDigits, isPadded_toDigits, Bool.or_false, if_neg Bool.false_ne_true,
    readRadix?, digits, Integer.read_toString (Nat.le_sub_one_of_lt fits)]
  rfl

/-- What the characters of a scalar can mean. -/
inductive IsMeaning (text : String) : Scalar → Prop where
  /-- Nothing. -/
  | null : IsMeaning text .null
  /-- A truth value. -/
  | bool (b : Bool) : IsMeaning text (.bool b)
  /-- The integer that they spell, unless it is too wide. -/
  | integer {scalar : Scalar} (spelt : ofInteger? text = some scalar) : IsMeaning text scalar
  /-- The number with a fraction that they spell. -/
  | float {x : Binary64} (spelt : float? text = some x) : IsMeaning text (.number (.float x))
  /-- Themselves. -/
  | string : IsMeaning text (.string text)
  /-- Something else than a tag asks for. -/
  | mismatch (expected : String) : IsMeaning text (.mismatch text expected)

/-- A plain scalar without a tag means what its characters can mean. -/
theorem isMeaning_ofPlain (text : String) : IsMeaning text (ofPlain text) := by
  rw [ofPlain]
  split
  · exact .null
  · split
    · exact .bool _
    · next spelt => exact .integer spelt
    · split
      · exact .string
      · split
        · next spelt => exact .float spelt
        · exact .string

/-- A scalar of any tag and style means what its characters can mean. -/
theorem isMeaning_resolve (tag : Option String) (style : ScalarStyle) (text : String) :
    IsMeaning text (resolve tag style text) := by
  have unquoted : IsMeaning text (if style = .plain then ofPlain text else .string text) := by
    split
    · exact isMeaning_ofPlain text
    · exact .string
  cases tag with
  | none => exact unquoted
  | some tag =>
    simp only [resolve]
    split
    · cases bool? text with
      | none => exact .mismatch _
      | some b => exact .bool b
    · split
      · cases spelt : ofInteger? text with
        | none => exact .mismatch _
        | some scalar => exact .integer spelt
      · split
        · cases spelt : float? text with
          | none => exact .mismatch _
          | some x => exact .float spelt
        · split
          · split
            · exact .null
            · exact .mismatch _
          · split
            · exact unquoted
            · exact .string

/-- An integer of any width is no text. -/
theorem ofInteger?_ne_string (text other : String) : ofInteger? text ≠ some (.string other) := by
  rw [ofInteger?]
  split
  · simp
  · simp

/-- An integer of any width is no number with a fraction. -/
theorem ofInteger?_ne_float (text : String) (x : Binary64) :
    ofInteger? text ≠ some (.number (.float x)) := by
  rw [ofInteger?]
  split
  · simp
  · simp

/-- Only its own characters are the text that a scalar means. -/
theorem eq_of_resolve {tag : Option String} {style : ScalarStyle} {text other : String}
    (meant : resolve tag style text = .string other) : text = other := by
  have meaning := isMeaning_resolve tag style text
  rw [meant] at meaning
  cases meaning with
  | integer spelt => exact absurd spelt (ofInteger?_ne_string _ _)
  | string => rfl

/-- A scalar is a number with a fraction only where it is spelt as one. -/
theorem float?_of_resolve {tag : Option String} {style : ScalarStyle} {text : String} {x : Binary64}
    (meant : resolve tag style text = .number (.float x)) : float? text = some x := by
  have meaning := isMeaning_resolve tag style text
  rw [meant] at meaning
  cases meaning with
  | integer spelt => exact absurd spelt (ofInteger?_ne_float _ _)
  | float spelt => exact spelt

end Rally.Yaml.Scalar
