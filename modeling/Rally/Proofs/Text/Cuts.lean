import Rally.Text.Blank
import Rally.Text.Split
/-!
# Where texts are cut

A text is cut at a mark into the pieces on its two sides and into nothing else: at the first mark where
the piece before it has none (`splitFirst_append`), at the last one where the piece behind it has none
(`splitLast_eq_some_iff`). Its pieces between line feeds are those of any two texts that it is put together
from at a line feed (`pieces_append`). Blank characters at the ends do not matter once they are removed.
-/

namespace Rally.Text

/-- A text is cut at a mark behind which there is no other. -/
theorem splitLast_append {mark : Char} (before : List Char) {behind : List Char}
    (last : mark ∉ behind) : splitLast mark (before ++ mark :: behind) = some (before, behind) := by
  induction before with
  | nil => rw [List.nil_append, splitLast, splitLast_eq_none.mpr last, if_pos rfl]
  | cons c rest ih => rw [List.cons_append, splitLast, ih]

/-- The cuts at the last mark are the ways to put the text together at a mark, behind which there is no other. -/
theorem splitLast_eq_some_iff {mark : Char} {text before behind : List Char} :
    splitLast mark text = some (before, behind) ↔
      text = before ++ mark :: behind ∧ mark ∉ behind := by
  refine ⟨splitLast_eq_some, ?_⟩
  rintro ⟨rfl, last⟩
  exact splitLast_append before last

/-- A text is cut at a mark in front of which there is no other. -/
theorem splitFirst_append {mark : Char} {before : List Char} (first : mark ∉ before)
    (behind : List Char) : splitFirst mark (before ++ mark :: behind) = some (before, behind) := by
  induction before with
  | nil => rw [List.nil_append, splitFirst, if_pos rfl]
  | cons c rest ih =>
    have differs : c ≠ mark := fun same => first (same ▸ List.mem_cons_self)
    have later : mark ∉ rest := fun inside => first (List.mem_cons_of_mem c inside)
    rw [List.cons_append, splitFirst, if_neg differs, ih later, Option.map_some]

/-- Another character at the end belongs to the piece behind the first mark. -/
theorem splitFirst_concat {mark c : Char} (differs : c ≠ mark) (text : List Char) :
    splitFirst mark (text ++ [c]) =
      (splitFirst mark text).map fun (before, behind) => (before, behind ++ [c]) := by
  induction text with
  | nil => simp only [List.nil_append, splitFirst, if_neg differs, Option.map_none]
  | cons first rest ih =>
    rw [List.cons_append, splitFirst, splitFirst]
    split
    · rw [Option.map_some]
    · rw [ih, Option.map_map, Option.map_map]
      rfl

/-- There is a piece in every text. -/
theorem pieces_ne_nil (text : List Char) : pieces text ≠ [] := by
  cases text with
  | nil => exact List.cons_ne_nil _ _
  | cons c rest =>
    rw [pieces]
    split
    · exact List.cons_ne_nil _ _
    · split <;> exact List.cons_ne_nil _ _

/-- A line feed ends the pieces of what stands before it. -/
theorem pieces_append (before behind : List Char) :
    pieces (before ++ '\n' :: behind) = pieces before ++ pieces behind := by
  induction before with
  | nil => simp only [List.nil_append, pieces, if_pos, List.singleton_append]
  | cons c rest ih =>
    rw [List.cons_append, pieces, pieces, ih]
    split
    · rw [List.cons_append]
    · cases first : pieces rest with
      | nil => exact absurd first (pieces_ne_nil rest)
      | cons piece others => simp only [List.cons_append]

/-- A text without a line feed is one piece. -/
theorem pieces_of_notMem {text : List Char} (whole : '\n' ∉ text) : pieces text = [text] := by
  induction text with
  | nil => rw [pieces]
  | cons c rest ih =>
    have differs : c ≠ '\n' := fun same => whole (same ▸ List.mem_cons_self)
    have later : '\n' ∉ rest := fun inside => whole (List.mem_cons_of_mem c inside)
    rw [pieces, if_neg differs, ih later]

/-- Blank characters at the end do not matter once they are removed. -/
theorem trim_concat {c : Char} (blank : isBlank c = true) (text : List Char) :
    trim (text ++ [c]) = trim text := by
  have ends (rest : List Char) : trimEnd (rest ++ [c]) = trimEnd rest := by
    rw [trimEnd, trimEnd, List.reverse_append, List.reverse_singleton, List.singleton_append,
      List.dropWhile_cons_of_pos blank]
  rw [trim, trim, List.dropWhile_append]
  split
  · next none =>
    rw [List.isEmpty_iff.mp none, List.dropWhile_cons_of_pos blank, List.dropWhile_nil]
  · exact ends _

/-- Whether neither end of a text is blank. -/
def IsTight (text : List Char) : Prop :=
  (∀ c ∈ text.head?, isBlank c = false) ∧ ∀ c ∈ text.getLast?, isBlank c = false

/-- A text is tight if what stands at its ends, if anything, is not blank. -/
theorem isTight_iff (text : List Char) :
    IsTight text ↔ text.head?.all (!isBlank ·) = true ∧ text.getLast?.all (!isBlank ·) = true := by
  simp only [IsTight, Option.mem_def, Option.all_eq_true, Bool.not_eq_true']

instance (text : List Char) : Decidable (IsTight text) := decidable_of_iff' _ (isTight_iff text)

/-- Nothing is removed from a text of which neither end is blank. -/
theorem trim_of_isTight {text : List Char} (tight : IsTight text) : trim text = text := by
  have keeps {rest : List Char} (solid : ∀ c ∈ rest.head?, isBlank c = false) :
      rest.dropWhile isBlank = rest := by
    cases rest with
    | nil => rw [List.dropWhile_nil]
    | cons c rest =>
      have starts : ¬isBlank c = true := by
        rw [solid c (by rw [List.head?_cons, Option.mem_some])]
        exact Bool.false_ne_true
      exact List.dropWhile_cons_of_neg starts
  rw [trim, keeps tight.1, trimEnd, keeps, List.reverse_reverse]
  rw [List.head?_reverse]
  exact tight.2

end Rally.Text
