import Rally.Text.Split
/-!
# Texts cut at octets

A place in a text may also be told by the number of octets before it. Not every number is such a place: it
may lie inside of a character or past the end, and then nothing can be cut there. A part of a text is
what lies between its octets (`between?_append`).
-/

namespace Rally.Text

/-- The part of a text between two numbers of octets. There is none where one of them lies inside of a
character or past the end, or where they are out of order. -/
def between? (text : String) (start stop : Nat) : Option String :=
  if lies : start ≤ stop ∧ String.Pos.Raw.IsValid text ⟨start⟩ ∧
      String.Pos.Raw.IsValid text ⟨stop⟩ then
    some (text.slice (text.pos ⟨start⟩ lies.2.1) (text.pos ⟨stop⟩ lies.2.2) lies.1).copy
  else none

/-- A part of a text lies between its octets. -/
theorem between?_append (before part behind : String) :
    between? (before ++ part ++ behind) before.utf8ByteSize
      (before.utf8ByteSize + part.utf8ByteSize) = some part := by
  have size : (before ++ part).rawEndPos = ⟨before.utf8ByteSize + part.utf8ByteSize⟩ :=
    String.Pos.Raw.ext String.utf8ByteSize_append
  have joined : before ++ part ++ behind = before ++ (part ++ behind) := String.append_assoc
  have start : String.Pos.Raw.IsValid (before ++ part ++ behind) ⟨before.utf8ByteSize⟩ :=
    String.Pos.Raw.isValid_iff_exists_append.mpr ⟨before, part ++ behind, joined, rfl⟩
  have stop : String.Pos.Raw.IsValid (before ++ part ++ behind)
      ⟨before.utf8ByteSize + part.utf8ByteSize⟩ :=
    String.Pos.Raw.isValid_iff_exists_append.mpr ⟨before ++ part, behind, rfl, size.symm⟩
  have front : (String.pos _ _ start).Splits before (part ++ behind) := ⟨joined, rfl⟩
  have back : (String.pos _ _ stop).Splits (before ++ part) behind := ⟨rfl, size.symm⟩
  obtain ⟨_, found⟩ := String.copy_slice_eq_iff_splits.mpr ⟨before, behind, front, back⟩
  rw [between?, dif_pos ⟨Nat.le_add_right _ _, start, stop⟩, found]

/-- Between the octets of one character there is nothing. -/
example : between? "é" 1 2 = none := by decide +kernel

end Rally.Text
