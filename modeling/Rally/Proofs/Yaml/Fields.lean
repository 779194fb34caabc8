import Rally.Proofs.Yaml.Meaning
import Rally.Proofs.Yaml.Recovery
/-!
# Reading field by field

A mapping is read field by field, and then what was read is finished (`ReadsFields`). Where each field can be
recovered and sets what belongs to it alone (`RecoversFields`), all of them are recovered in any order, and so is
the mapping (`ReadsFields.recovers`).
-/

namespace Rally.Yaml

variable {α β : Type}

/-- Whether what a mapping stands for is read field by field, and then finished with a view to where the
mapping begins. -/
structure ReadsFields (reader : Spot → Reader β) (names : List String)
    (read : String → Spot → α → Reader α) (start : α) (finish : Spot → α → Reader β) : Prop where
  /-- The fields of the mapping are read from the start, and the record is finished. -/
  shape : ∃ expected, ∀ s : Spot, reader s = do
    let (s, entries) ← s.entries expected
    let record ← s.fields names entries read [] start
    finish s record
  /-- Finishing tells no nodes apart that begin at one place. -/
  marks : ∀ (s : Spot) (node : Node), node.mark = s.node.mark → finish { s with node } = finish s

/-- Whether the fields of a mapping are recovered one by one: what belongs to a field fits after it was read just
where this is possible, and it is set by no other field. -/
structure RecoversFields (names : List String) (read : String → Spot → α → Reader α)
    (fields : Keyed Value) (Fits : String → α → Prop) (Able : String → Prop) : Prop where
  /-- The fields have known names. -/
  known : ∀ field ∈ fields, field.1 ∈ names
  /-- Each field is recovered if this is possible. -/
  each : ∀ field ∈ fields, ∀ {part : Spot} {before after : Nat}, part.Means field.2 before after →
    ∀ record, Recovers (read field.1 part record) before after (Fits field.1) (Able field.1)
  /-- It leaves what belongs to the others as it is. -/
  keeps : ∀ {name other : String} {part : Spot} {record next : α} {before after : Nat},
    name ∈ names → other ∈ names → other ≠ name →
      read name part record before = .ok (next, after) → (Fits other next ↔ Fits other record)

variable {names : List String} {read : String → Spot → α → Reader α} {fields : Keyed Value}
  {Fits : String → α → Prop} {Able : String → Prop} {s : Spot} {before after : Nat}

/-- What holds of all names holds of one and of the others. -/
theorem forall_mem_iff_and {name : String} (among : name ∈ names)
    {P Q : String → Prop} (agree : ∀ other ∈ names, other ≠ name → (P other ↔ Q other)) :
    (∀ other ∈ names, P other) ↔ P name ∧ ∀ other ∈ names, other ≠ name → Q other := by
  constructor
  · intro all
    exact ⟨all name among, fun other inside differ =>
      (agree other inside differ).mp (all other inside)⟩
  · rintro ⟨this, others⟩ other inside
    by_cases same : other = name
    · exact same ▸ this
    · exact (agree other inside same).mpr (others other inside same)

/-- The fields of a mapping are recovered in any order. What belongs to one that is left out stays as it was. -/
theorem Spot.MeanFields.recovers {entries : List (Node × Node)} {given : Keyed Value}
    (mean : s.MeanFields entries given before after)
    (recovery : RecoversFields names read fields Fits Able) (among : ∀ field ∈ given, field ∈ fields)
    (distinct : (given.map Prod.fst).Nodup) (seen : List String)
    (new : ∀ field ∈ given, seen.contains field.1 = false) (record : α) :
    Recovers (s.fields names entries read seen record) before after
      (fun next => ∀ name ∈ names, Fits name next)
      (∀ name ∈ names, if name ∈ given.map Prod.fst then Able name else Fits name record) := by
  induction mean generalizing seen record with
  | nil => exact .of_ok rfl (by simp)
  | @cons key node entries name value given before between behind after named valued rest ih =>
    obtain ⟨here, among⟩ := List.forall_mem_cons.mp among
    obtain ⟨lone, distinct⟩ := List.nodup_cons.mp distinct
    obtain ⟨first, new⟩ := List.forall_mem_cons.mp new
    have known : name ∈ names := recovery.known _ here
    rw [Spot.fields]
    refine .after_ok (named.text _) ?_
    simp only [List.contains_iff_mem.mpr known, first, Bool.not_true, if_neg Bool.false_ne_true]
    -- What the first field has to do is taken apart from what the others have to, before and after it is read.
    have whole := forall_mem_iff_and known (P := fun other =>
        if other ∈ name :: given.map Prod.fst then Able other else Fits other record)
      (Q := fun other => if other ∈ given.map Prod.fst then Able other else Fits other record)
      fun other _ differ => by simp only [List.mem_cons, differ, false_or]
    rw [if_pos List.mem_cons_self] at whole
    refine Recovers.congr ?_ whole.symm
    refine ((recovery.each _ here (valued (stepOf key)) record).attach _).bind fun next reads => ?_
    have onwards := forall_mem_iff_and known (P := fun other =>
        if other ∈ given.map Prod.fst then Able other else Fits other next)
      (Q := fun other => if other ∈ given.map Prod.fst then Able other else Fits other record)
      fun other inside differ => by rw [recovery.keeps known inside differ reads]
    rw [if_neg lone] at onwards
    refine (ih among distinct (name :: seen) (fun field inside => ?_) next).congr onwards
    have differ : field.1 ≠ name := fun same => lone (List.mem_map.mpr ⟨field, inside, same⟩)
    rw [List.contains_cons, new field inside, beq_false_of_ne differ]
    rfl

/-- What is read field by field is recovered where its fields are, and where what belongs to those that were left
out fits from the start. -/
theorem ReadsFields.recovers {reader : Spot → Reader β} {start : α} {finish : Spot → α → Reader β}
    {whole : β → Prop} (reads : ReadsFields reader names read start finish)
    (recovery : RecoversFields names read fields Fits Able)
    (finishes : ∀ t record,
      Recovers (finish t record) after after whole (∀ name ∈ names, Fits name record))
    (means : s.Means (.mapping (fields.map fun (name, value) => (.string name, value))) before after) :
    Recovers (reader s) before after whole
      (∀ name ∈ names, if name ∈ fields.map Prod.fst then Able name else Fits name start) := by
  obtain ⟨expected, shape⟩ := reads.shape
  obtain ⟨t, entries, given, between, opened, mean, perm, distinct⟩ := means.entries expected
  have order (name : String) : name ∈ given.map Prod.fst ↔ name ∈ fields.map Prod.fst :=
    (perm.map Prod.fst).mem_iff
  rw [shape]
  refine .after_ok opened (.bind ?_ fun record _ => finishes t record)
  refine (mean.recovers recovery (fun field => perm.mem_iff.mp) distinct [] (fun _ _ => rfl) start).congr ?_
  simp only [order]

end Rally.Yaml
