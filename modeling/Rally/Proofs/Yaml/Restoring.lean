import Rally.Proofs.Yaml.Meaning
import Rally.Yaml.Printer
/-!
# Values that YAML restores

YAML restores a value if the same value is read from its text, in a document where the numbers are spelt as they
are written (`Value.IsRestored`). The spelling matters to whoever asks for a number: `-0` and a quoted `0` with
the tag of integers are read as the value zero, but not as a natural number. Whether a value is restored can be
checked by reading its text (`Value.isRestored_of_restores`).
-/

namespace Rally.Yaml

/-- Whether YAML restores a value. -/
def Value.IsRestored (value : Value) : Prop :=
  ∃ document root read followed, Document.ofText value.print = .ok document ∧
    document.root = some root ∧
    (document.spot root).value.run 0 = .ok (read, followed) ∧ read.same value = true ∧
    document.Spells root

/-- The document of a restored value means it. -/
theorem Value.IsRestored.means {value : Value} (restored : value.IsRestored) :
    ∃ (document : Document) (root : Node) (followed : Nat),
      Document.ofText value.print = .ok document ∧ document.root = some root ∧
        document.hasValue root = true ∧ (document.spot root).Means value 0 followed := by
  obtain ⟨document, root, read, followed, parsed, rooted, reads, same, spelt⟩ := restored
  refine ⟨document, root, followed, parsed, rooted, ?_, spelt, read,
    readValue_eq_ok_iff.mp reads, same⟩
  rw [Document.hasValue, reads]
  rfl

namespace Node

mutual

/-- Whether a node has no aliases and all of its numbers are spelt as they are written. -/
def spells : Node → Bool
  | .scalar _ tag style text =>
    match Scalar.resolve tag style text with
    | .number number => style == .plain && text == number.text
    | _ => true
  | .sequence _ _ items => spellsItems items
  | .mapping _ _ entries => spellsEntries entries
  | .alias .. => false
termination_by structural node => node

/-- Whether items have no aliases and all of their numbers are spelt as they are written. -/
def spellsItems : List Node → Bool
  | [] => true
  | item :: rest => spells item && spellsItems rest
termination_by structural items => items

/-- Whether entries have no aliases and all of their numbers are spelt as they are written. -/
def spellsEntries : List (Node × Node) → Bool
  | [] => true
  | (key, value) :: rest => spells key && spells value && spellsEntries rest
termination_by structural entries => entries

end

/-- Each item is spelt as it is written. -/
theorem spells_of_mem {item : Node} {items : List Node} (spelt : spellsItems items = true)
    (inside : item ∈ items) : item.spells = true := by
  induction inside with
  | head rest =>
    rw [spellsItems, Bool.and_eq_true] at spelt
    exact spelt.1
  | tail first _ ih =>
    rw [spellsItems, Bool.and_eq_true] at spelt
    exact ih spelt.2

/-- Each key and each value is spelt as it is written. -/
theorem spells_of_mem_entries {entry : Node × Node} {entries : List (Node × Node)}
    (spelt : spellsEntries entries = true) (inside : entry ∈ entries) :
    entry.1.spells = true ∧ entry.2.spells = true := by
  induction inside with
  | head rest =>
    rw [spellsEntries, Bool.and_eq_true, Bool.and_eq_true] at spelt
    exact spelt.1
  | tail first _ ih =>
    rw [spellsEntries, Bool.and_eq_true] at spelt
    exact ih spelt.2

/-- What a node without aliases leads to is spelt as it is written. -/
theorem spells_of_leads {document : Document} {node target : Node}
    (leads : document.Leads node target) (spelt : node.spells = true) : target.spells = true := by
  induction leads with
  | here => exact spelt
  | item inside _ ih => exact ih (spells_of_mem spelt inside)
  | key inside _ ih => exact ih (spells_of_mem_entries spelt inside).1
  | value inside _ ih => exact ih (spells_of_mem_entries spelt inside).2
  | follow => cases spelt

end Node

/-- Whether the same value is read from the text of a value, whose document has no aliases. -/
def Value.restores (value : Value) : Bool :=
  match Document.ofText value.print with
  | .ok document => document.root.any fun root =>
    root.spells && match (document.spot root).value.run 0 with
      | .ok (read, _) => read.same value
      | .error _ => false
  | .error _ => false

/-- A value that is found to be restored is restored. -/
theorem Value.isRestored_of_restores {value : Value} (checked : value.restores = true) :
    value.IsRestored := by
  rw [restores] at checked
  split at checked
  · next document parsed =>
    obtain ⟨root, rooted, checked⟩ := (Option.any_eq_true _ _).mp checked
    rw [Bool.and_eq_true] at checked
    obtain ⟨spelt, checked⟩ := checked
    split at checked
    · next read followed reads =>
      refine ⟨document, root, read, followed, parsed, rooted, reads, checked, ?_⟩
      intro mark tag style text number leads meant
      have scalar := Node.spells_of_leads leads spelt
      rw [Node.spells, meant] at scalar
      simpa using scalar
    · cases checked
  · cases checked

end Rally.Yaml
