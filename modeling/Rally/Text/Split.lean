/-!
# Cutting text

Texts are cut at characters: at every line end, at the first mark, or at the last one. The pieces
on both sides of a last mark make up the text again, and the later one has no mark
(`splitLast_eq_some`).
-/

namespace Rally

namespace Text

/-- The pieces before and behind the first mark. -/
def splitFirst (mark : Char) : List Char → Option (List Char × List Char)
  | [] => none
  | c :: rest =>
    if c = mark then some ([], rest)
    else (splitFirst mark rest).map fun (before, behind) => (c :: before, behind)

/-- The pieces before and behind the last mark. -/
def splitLast (mark : Char) : List Char → Option (List Char × List Char)
  | [] => none
  | c :: rest =>
    match splitLast mark rest with
    | some (before, behind) => some (c :: before, behind)
    | none => if c = mark then some ([], rest) else none

/-- A line without the carriage return in front of its line feed. -/
def dropReturn (line : List Char) : List Char :=
  if line.getLast? = some '\x0d' then line.dropLast else line

/-- The pieces of a text between its line feeds, of which there is one more than line feeds. -/
def pieces : List Char → List (List Char)
  | [] => [[]]
  | c :: rest =>
    if c = '\n' then [] :: pieces rest
    else match pieces rest with
      | [] => [[c]]
      | first :: others => (c :: first) :: others

/-- The lines of pieces: all of them end with a line feed but the last one, which is a line only if
it holds anything. -/
def linesOfPieces : List (List Char) → List (List Char)
  | [] => []
  | [last] => if last = [] then [] else [last]
  | line :: others => dropReturn line :: linesOfPieces others

/-- The lines of a text, without line feeds and the carriage returns in front of them. -/
def lines (text : List Char) : List (List Char) := linesOfPieces (pieces text)

/-- There is no cut exactly in texts without the mark. -/
theorem splitLast_eq_none {mark : Char} {text : List Char} :
    splitLast mark text = none ↔ mark ∉ text := by
  induction text with
  | nil => simp [splitLast]
  | cons c rest hyp =>
    rw [splitLast]
    split
    · rename_i found
      simp only [reduceCtorEq, List.mem_cons, not_or, false_iff, not_and, Classical.not_not]
      intro _
      exact Classical.byContradiction fun absent => by simp [hyp.2 absent] at found
    · rename_i missing
      have := hyp.1 missing
      split <;> rename_i same
      · simp [same]
      · simp [this, Ne.symm same]

/-- A last cut loses nothing but the mark, and the piece behind it has none. -/
theorem splitLast_eq_some {mark : Char} {text before behind : List Char}
    (cut : splitLast mark text = some (before, behind)) :
    text = before ++ mark :: behind ∧ mark ∉ behind := by
  induction text generalizing before with
  | nil => simp [splitLast] at cut
  | cons c rest hyp =>
    rw [splitLast] at cut
    split at cut
    · rename_i found
      simp only [Option.some.injEq, Prod.mk.injEq] at cut
      obtain ⟨rfl, rfl⟩ := cut
      obtain ⟨whole, absent⟩ := hyp found
      exact ⟨by simp [whole], absent⟩
    · rename_i missing
      split at cut
      · rename_i same
        simp only [Option.some.injEq, Prod.mk.injEq] at cut
        obtain ⟨rfl, rfl⟩ := cut
        exact ⟨by simp [same], splitLast_eq_none.1 missing⟩
      · simp at cut

end Text

end Rally
