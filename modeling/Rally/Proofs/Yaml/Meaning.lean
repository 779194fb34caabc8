import Mathlib.Data.List.Nodup
import Mathlib.Data.List.Perm.Subperm
import Rally.Keyed
import Rally.Proofs.Yaml.NodeValues
import Rally.Proofs.Yaml.Numerals
/-!
# Reading what a document means

A spot means a value if the same value is told there and the numbers in it are spelt as they are written
(`Spot.Means`). What is meant is read: a text, a number, the items of a sequence, and the fields of a mapping in
whatever order they have.
-/

namespace Rally.Yaml

namespace Value

/-- Only a text is the same as a text. -/
theorem eq_string {value : Value} {text : String} (same : value.same (.string text) = true) :
    value = .string text := by
  cases value with
  | string other =>
    rw [Value.same, beq_iff_eq] at same
    rw [same]
  | _ => simp [Value.same] at same

/-- Only a number is the same as a number. -/
theorem exists_number {value : Value} {n : Number} (same : value.same (.number n) = true) :
    ∃ m, value = .number m ∧ m.same n = true := by
  cases value with
  | number m =>
    rw [Value.same] at same
    exact ⟨m, rfl, same⟩
  | _ => simp [Value.same] at same

/-- Only a sequence is the same as a sequence. -/
theorem exists_sequence {value : Value} {items : List Value}
    (same : value.same (.sequence items) = true) :
    ∃ others, value = .sequence others ∧ sameItems others items = true := by
  cases value with
  | sequence others =>
    rw [Value.same] at same
    exact ⟨others, rfl, same⟩
  | _ => simp [Value.same] at same

/-- Only a mapping is the same as a mapping, one with as many entries. -/
theorem exists_mapping {value : Value} {pairs : List (Value × Value)}
    (same : value.same (.mapping pairs) = true) :
    ∃ others, value = .mapping others ∧ others.length = pairs.length ∧
      sameEntries others pairs = true := by
  cases value with
  | mapping others =>
    rw [Value.same, Bool.and_eq_true, beq_iff_eq] at same
    exact ⟨others, rfl, same⟩
  | _ => simp [Value.same] at same

/-- Each entry of a mapping occurs among those of the same one. -/
theorem exists_of_sameEntries {entries others : List (Value × Value)}
    (same : sameEntries entries others = true) : ∀ entry ∈ entries,
      ∃ other ∈ others, entry.1.same other.1 = true ∧ entry.2.same other.2 = true := by
  induction entries with
  | nil => exact fun _ none => absurd none List.not_mem_nil
  | cons entry rest ih =>
    rw [sameEntries, Bool.and_eq_true, List.any_eq_true] at same
    refine List.forall_mem_cons.mpr ⟨?_, ih same.2⟩
    obtain ⟨other, inside, alike⟩ := same.1
    exact ⟨other, inside, Bool.and_eq_true_iff.mp alike⟩

end Value

/-- What stands behind a name of a tag is a tagged value, and otherwise it is the value itself. -/
theorem Spot.eq_of_labelled (s : Spot) {tag : Option String} {value read : Value}
    (named : s.labelled tag value = pure read) (bare : ∀ label inner, read ≠ .tagged label inner) :
    value = read := by
  have reads := congrFun named 0
  cases tag with
  | none =>
    cases reads
    rfl
  | some tag =>
    simp only [labelled] at reads
    split at reads
    · cases reads
      rfl
    · split at reads
      · cases reads
      · cases reads
        exact absurd rfl (bare _ _)

variable {document : Document} {depth : Nat} {node : Node} {read : Value} {before after : Nat}

/-- A node that is no alias tells an untagged value as a scalar that means it or as a collection. -/
theorem Document.Tells.untagged (tells : document.Tells depth node read before after)
    (direct : ∀ mark number, node ≠ .alias mark number)
    (bare : ∀ label inner, read ≠ .tagged label inner) :
    (∃ mark tag style text, node = .scalar mark tag style text ∧
        (Scalar.resolve tag style text).value? = some read ∧ after = before) ∨
      (∃ inner mark tag items values, depth = inner + 1 ∧ node = .sequence mark tag items ∧
        read = .sequence values ∧ document.TellsItems inner items values before after) ∨
      ∃ inner mark tag entries pairs, depth = inner + 1 ∧ node = .mapping mark tag entries ∧
        read = .mapping pairs ∧ document.TellsEntries inner entries pairs before after ∧
        pairs.Pairwise fun earlier later => later.1.same earlier.1 = false := by
  let s : Spot := ⟨document, node, [], depth⟩
  cases tells with
  | follow => exact absurd rfl (direct _ _)
  | scalar means named =>
    obtain rfl := s.eq_of_labelled (named s) bare
    exact .inl ⟨_, _, _, _, rfl, means, rfl⟩
  | sequence each named =>
    obtain rfl := s.eq_of_labelled (named s) bare
    exact .inr (.inl ⟨_, _, _, _, _, rfl, rfl, rfl, each⟩)
  | mapping each apart named =>
    obtain rfl := s.eq_of_labelled (named s) bare
    exact .inr (.inr ⟨_, _, _, _, _, rfl, rfl, rfl, each, apart⟩)

/-- A scalar stands for no sequence. -/
theorem Scalar.value?_ne_sequence (scalar : Scalar) (items : List Value) :
    scalar.value? ≠ some (.sequence items) := by
  cases scalar <;> simp [Scalar.value?]

/-- A scalar stands for no mapping. -/
theorem Scalar.value?_ne_mapping (scalar : Scalar) (pairs : List (Value × Value)) :
    scalar.value? ≠ some (.mapping pairs) := by
  cases scalar <;> simp [Scalar.value?]

/-- A text is told by a scalar that means it. -/
theorem Document.Tells.string {text : String} (tells : document.Tells depth node (.string text) before after)
    (direct : ∀ mark number, node ≠ .alias mark number) :
    ∃ mark tag style written, node = .scalar mark tag style written ∧
      Scalar.resolve tag style written = .string text ∧ after = before := by
  rcases tells.untagged direct fun _ _ => Value.noConfusion with
    ⟨mark, tag, style, written, here, means, same⟩ | ⟨_, _, _, _, _, _, _, other, _⟩ |
      ⟨_, _, _, _, _, _, _, other, _⟩
  · refine ⟨mark, tag, style, written, here, ?_, same⟩
    cases meant : Scalar.resolve tag style written <;> rw [meant] at means <;> cases means
    rfl
  · cases other
  · cases other

/-- A number is told by a scalar that means it. -/
theorem Document.Tells.number {m : Number} (tells : document.Tells depth node (.number m) before after)
    (direct : ∀ mark number, node ≠ .alias mark number) :
    ∃ mark tag style text, node = .scalar mark tag style text ∧
      Scalar.resolve tag style text = .number m ∧ after = before := by
  rcases tells.untagged direct fun _ _ => Value.noConfusion with
    ⟨mark, tag, style, text, here, means, same⟩ | ⟨_, _, _, _, _, _, _, other, _⟩ |
      ⟨_, _, _, _, _, _, _, other, _⟩
  · refine ⟨mark, tag, style, text, here, ?_, same⟩
    cases meant : Scalar.resolve tag style text <;> rw [meant] at means <;> cases means
    rfl
  · cases other
  · cases other

/-- A sequence is told by one whose items tell its own. -/
theorem Document.Tells.items {values : List Value}
    (tells : document.Tells depth node (.sequence values) before after)
    (direct : ∀ mark number, node ≠ .alias mark number) :
    ∃ inner mark tag items, depth = inner + 1 ∧ node = .sequence mark tag items ∧
      document.TellsItems inner items values before after := by
  rcases tells.untagged direct fun _ _ => Value.noConfusion with
    ⟨_, _, _, _, _, means, _⟩ | ⟨inner, mark, tag, items, _, deep, here, same, each⟩ |
      ⟨_, _, _, _, _, _, _, other, _⟩
  · exact absurd means (Scalar.value?_ne_sequence _ _)
  · cases same
    exact ⟨inner, mark, tag, items, deep, here, each⟩
  · cases other

/-- A mapping is told by one whose entries tell its own. -/
theorem Document.Tells.entries {pairs : List (Value × Value)}
    (tells : document.Tells depth node (.mapping pairs) before after)
    (direct : ∀ mark number, node ≠ .alias mark number) :
    ∃ inner mark tag entries, depth = inner + 1 ∧ node = .mapping mark tag entries ∧
      document.TellsEntries inner entries pairs before after ∧
      pairs.Pairwise fun earlier later => later.1.same earlier.1 = false := by
  rcases tells.untagged direct fun _ _ => Value.noConfusion with
    ⟨_, _, _, _, _, means, _⟩ | ⟨_, _, _, _, _, _, _, other, _⟩ |
      ⟨inner, mark, tag, entries, _, deep, here, same, each⟩
  · exact absurd means (Scalar.value?_ne_mapping _ _)
  · cases other
  · cases same
    exact ⟨inner, mark, tag, entries, deep, here, each⟩


/-- Whether a node leads to another one: to itself, to what is in it, and behind its aliases. -/
inductive Document.Leads (document : Document) : Node → Node → Prop where
  /-- To itself. -/
  | here {node : Node} : document.Leads node node
  /-- Through an item of a sequence. -/
  | item {mark : Mark} {tag : Option String} {items : List Node} {item target : Node}
      (inside : item ∈ items) (leads : document.Leads item target) :
      document.Leads (.sequence mark tag items) target
  /-- Through a key of a mapping. -/
  | key {mark : Mark} {tag : Option String} {entries : List (Node × Node)} {entry : Node × Node}
      {target : Node} (inside : entry ∈ entries) (leads : document.Leads entry.1 target) :
      document.Leads (.mapping mark tag entries) target
  /-- Through a value of a mapping. -/
  | value {mark : Mark} {tag : Option String} {entries : List (Node × Node)}
      {entry : Node × Node} {target : Node} (inside : entry ∈ entries)
      (leads : document.Leads entry.2 target) : document.Leads (.mapping mark tag entries) target
  /-- Behind an alias. -/
  | follow {mark : Mark} {number : Nat} {node target : Node}
      (found : document.node? number = some node) (leads : document.Leads node target) :
      document.Leads (.alias mark number) target

/-- Whether all numbers that a node leads to are spelt as numbers are written. -/
def Document.Spells (document : Document) (node : Node) : Prop :=
  ∀ mark tag style text number, document.Leads node (.scalar mark tag style text) →
    Scalar.resolve tag style text = .number number → style = .plain ∧ text = number.text

namespace Spot

/-- Whether the same value as another is told at a spot, in numbers that are spelt as they are written. -/
structure Means (s : Spot) (value : Value) (before after : Nat) : Prop where
  /-- The numbers are spelt as they are written. -/
  spelt : s.document.Spells s.node
  /-- The same value is told. -/
  tells : ∃ read, s.document.Tells s.depth s.node read before after ∧ read.same value = true

variable {s : Spot} {before after : Nat}

/-- What is meant at a spot is meant behind its aliases. -/
theorem Means.resolve {value : Value} (means : s.Means value before after) :
    ∃ node between, s.resolve before = .ok ({ s with node }, between) ∧
      (∀ mark number, node ≠ .alias mark number) ∧
      Means { s with node } value between after := by
  obtain ⟨read, tells, same⟩ := means.tells
  obtain ⟨t, between, resolved, direct, tells⟩ := tells_iff_resolve.mp tells
  rcases resolve_eq_ok_iff.mp resolved with ⟨-, rfl, -⟩ | ⟨_, _, node, here, found, -, rfl, -⟩
  · exact ⟨t.node, between, resolved, direct, means.spelt, read, tells, same⟩
  · refine ⟨node, between, resolved, direct, fun mark tag style text number leads => ?_, read, tells,
      same⟩
    refine means.spelt mark tag style text number ?_
    rw [here]
    exact .follow found leads

/-- A text that is meant is read. -/
theorem Means.text {text : String} (means : s.Means (.string text) before after)
    (expected : String) : s.text expected before = .ok (text, after) := by
  obtain ⟨node, between, resolved, direct, -, read, tells, same⟩ := means.resolve
  obtain rfl := Value.eq_string same
  obtain ⟨mark, tag, style, written, rfl, meant, rfl⟩ := tells.string direct
  rw [← Scalar.eq_of_resolve meant]
  exact bind_eq_ok_iff.mpr ⟨_, _, resolved, rfl⟩

/-- A value that is meant is read as the same one. -/
theorem Means.value {given : Value} (means : s.Means given before after) :
    ∃ read, s.value before = .ok (read, after) ∧ read.same given = true := by
  obtain ⟨read, tells, same⟩ := means.tells
  exact ⟨read, readValue_eq_ok_iff.mpr tells, same⟩

/-- A natural number of 32 bits that is meant is read. -/
theorem Means.word {n : Nat} (fits : n < 1 <<< 32)
    (means : s.Means (.number (.integer n)) before after) : s.word before = .ok (n, after) := by
  obtain ⟨node, between, resolved, direct, spelt, read, tells, same⟩ := means.resolve
  obtain ⟨m, rfl, alike⟩ := Value.exists_number same
  obtain ⟨mark, tag, style, text, rfl, meant, rfl⟩ := tells.number direct
  obtain ⟨rfl, rfl⟩ := spelt _ _ _ _ _ .here meant
  cases m with
  | float x => cases alike
  | integer m =>
    obtain rfl : m = n := beq_iff_eq.mp alike
    have digits : (Number.integer n).text = toString n := rfl
    have within : n < 1 <<< 64 := Nat.lt_trans fits (by decide)
    refine bind_eq_ok_iff.mpr ⟨_, _, resolved, ?_⟩
    rw [numeral?]
    simp only [digits, Option.bind_some, decide_true, Bool.true_or, if_pos,
      Scalar.unsigned?_toString within, Int.toNat_natCast, fits]
    rfl

/-- The spelling matters: zero with a minus is read as the value zero, but not as a natural number. -/
example :
    let s : Spot := ⟨⟨none, #[], 0⟩, .scalar ⟨0, 0, 0⟩ none .plain "-0", [], 0⟩
    (s.value.run 0).toOption.any (fun found => found.1.same (.number (.integer 0))) = true ∧
      (s.word.run 0).isOk = false := by
  decide +kernel

/-- A number with a fraction that is meant is read as the same number. -/
theorem Means.float {x : Binary64} (means : s.Means (.number (.float x)) before after) :
    ∃ y, s.float before = .ok (y, after) ∧ (Number.float y).same (.float x) = true := by
  obtain ⟨node, between, resolved, direct, spelt, read, tells, same⟩ := means.resolve
  obtain ⟨m, rfl, alike⟩ := Value.exists_number same
  obtain ⟨mark, tag, style, text, rfl, meant, rfl⟩ := tells.number direct
  obtain ⟨rfl, rfl⟩ := spelt _ _ _ _ _ .here meant
  cases m with
  | integer n => cases alike
  | float y =>
    refine ⟨y, bind_eq_ok_iff.mpr ⟨_, _, resolved, ?_⟩, alike⟩
    rw [numeral?]
    simp only [Option.bind_some, decide_true, Bool.true_or, if_pos, Scalar.float?_of_resolve meant]
    rfl

/-- A collection is opened where it may still nest. -/
theorem enter_eq_ok {inner count : Nat} (deep : s.depth = inner + 1) :
    s.enter count = .ok ((), count) := by
  rw [enter, if_neg (deep ▸ Nat.succ_ne_zero inner)]
  rfl

/-- Whether nodes in a collection at a spot mean values, one after the other. -/
inductive MeanItems (s : Spot) : List Node → List Value → Nat → Nat → Prop where
  /-- No nodes mean no values. -/
  | nil {count : Nat} : s.MeanItems [] [] count count
  /-- A node means a value, and the others go on. -/
  | cons {node : Node} {nodes : List Node} {value : Value} {values : List Value}
      {before between after : Nat} (first : ∀ step, (s.part step node).Means value before between)
      (rest : s.MeanItems nodes values between after) :
      s.MeanItems (node :: nodes) (value :: values) before after

/-- Whether entries of a mapping at a spot mean fields, one after the other. -/
inductive MeanFields (s : Spot) : List (Node × Node) → Keyed Value → Nat → Nat → Prop where
  /-- No entries mean no fields. -/
  | nil {count : Nat} : s.MeanFields [] [] count count
  /-- A key means a name and its value the value of the field, and the other entries go on. -/
  | cons {key node : Node} {entries : List (Node × Node)} {name : String} {value : Value}
      {fields : Keyed Value} {before between behind after : Nat}
      (named : (s.ofKey key).Means (.string name) before between)
      (valued : ∀ step, (s.part step node).Means value between behind)
      (rest : s.MeanFields entries fields behind after) :
      s.MeanFields ((key, node) :: entries) ((name, value) :: fields) before after

/-- Items mean what is the same as they tell. -/
theorem meanItems_of_tells {inner : Nat} (deep : s.depth = inner + 1) {nodes : List Node}
    {reads values : List Value} (spelt : ∀ node ∈ nodes, s.document.Spells node)
    (tells : s.document.TellsItems inner nodes reads before after)
    (same : Value.sameItems reads values = true) : s.MeanItems nodes values before after := by
  obtain rfl : inner = s.depth - 1 := by omega
  induction nodes generalizing reads values before with
  | nil =>
    cases tells
    cases values with
    | nil => exact .nil
    | cons => simp [Value.sameItems] at same
  | cons node nodes ih =>
    cases tells with
    | cons first rest =>
      cases values with
      | nil => simp [Value.sameItems] at same
      | cons value values =>
        rw [Value.sameItems, Bool.and_eq_true] at same
        obtain ⟨here, others⟩ := List.forall_mem_cons.mp spelt
        exact .cons (fun _ => ⟨here, _, first, same.1⟩) (ih others same.2 rest)

/-- The items of a sequence that is meant are found. -/
theorem Means.items {values : List Value} (means : s.Means (.sequence values) before after)
    (expected : String) :
    ∃ (t : Spot) (nodes : List Node) (between : Nat), s.items expected before =
        .ok ((t, nodes.zipIdx.map fun item => t.part (.item item.2) item.1), between) ∧
      t.MeanItems nodes values between after := by
  obtain ⟨node, between, resolved, direct, spelt, read, tells, same⟩ := means.resolve
  obtain ⟨others, rfl, alike⟩ := Value.exists_sequence same
  obtain ⟨inner, mark, tag, nodes, deep, rfl, each⟩ := tells.items direct
  refine ⟨_, nodes, between, bind_eq_ok_iff.mpr ⟨_, _, resolved, ?_⟩,
    meanItems_of_tells deep (fun node inside => ?_) each alike⟩
  · exact bind_eq_ok_iff.mpr ⟨(), between, enter_eq_ok (s := { s with node := _ }) deep, rfl⟩
  · exact fun mark tag style text number leads =>
      spelt mark tag style text number (.item inside leads)

/-- Entries whose keys are texts mean fields among those that they are the same as. -/
theorem exists_meanFields {inner : Nat} (deep : s.depth = inner + 1)
    {entries : List (Node × Node)} {pairs : List (Value × Value)} {fields : Keyed Value}
    (spelt : ∀ entry ∈ entries, s.document.Spells entry.1 ∧ s.document.Spells entry.2)
    (tells : s.document.TellsEntries inner entries pairs before after)
    (each : ∀ pair ∈ pairs, ∃ other ∈ fields.map fun (name, value) => (Value.string name, value),
      pair.1.same other.1 = true ∧ pair.2.same other.2 = true) :
    ∃ given : Keyed Value, s.MeanFields entries given before after ∧
      (∀ field ∈ given, field ∈ fields) ∧
      pairs.map Prod.fst = given.map fun field => .string field.1 := by
  obtain rfl : inner = s.depth - 1 := by omega
  induction entries generalizing pairs before with
  | nil =>
    cases tells
    exact ⟨[], .nil, fun _ none => absurd none List.not_mem_nil, rfl⟩
  | cons entry entries ih =>
    cases tells with
    | cons keyed valued rest =>
      obtain ⟨here, others⟩ := List.forall_mem_cons.mp spelt
      obtain ⟨⟨_, inside, key, value⟩, more⟩ := List.forall_mem_cons.mp each
      obtain ⟨given, mean, among, keys⟩ := ih others more rest
      obtain ⟨field, found, rfl⟩ := List.mem_map.mp inside
      refine ⟨field :: given,
        .cons ⟨here.1, _, keyed, key⟩ (fun _ => ⟨here.2, _, valued, value⟩) mean,
        List.forall_mem_cons.mpr ⟨found, among⟩, ?_⟩
      rw [List.map_cons, List.map_cons, keys, Value.eq_string key]

/-- The fields of a mapping that is meant are found in some order, and no two of them have one name. -/
theorem Means.entries {fields : Keyed Value}
    (means : s.Means (.mapping (fields.map fun (name, value) => (.string name, value))) before after)
    (expected : String) :
    ∃ (t : Spot) (entries : List (Node × Node)) (given : Keyed Value) (between : Nat),
      s.entries expected before = .ok ((t, entries), between) ∧
      t.MeanFields entries given between after ∧ given.Perm fields ∧ (given.map Prod.fst).Nodup := by
  obtain ⟨node, between, resolved, direct, spelt, read, tells, same⟩ := means.resolve
  obtain ⟨pairs, rfl, long, alike⟩ := Value.exists_mapping same
  obtain ⟨inner, mark, tag, entries, deep, rfl, each, apart⟩ := tells.entries direct
  obtain ⟨given, mean, among, keys⟩ := exists_meanFields deep
    (fun entry inside =>
      ⟨fun mark tag style text number leads => spelt mark tag style text number (.key inside leads),
        fun mark tag style text number leads =>
          spelt mark tag style text number (.value inside leads)⟩)
    each (Value.exists_of_sameEntries alike)
  have distinct : (given.map Prod.fst).Nodup := by
    have differ : (pairs.map Prod.fst).Pairwise fun earlier later => later.same earlier = false :=
      List.pairwise_map.mpr apart
    rw [keys, List.pairwise_map] at differ
    refine List.pairwise_map.mpr (differ.imp fun other same => ?_)
    rw [same, Value.same, beq_self_eq_true] at other
    cases other
  refine ⟨_, entries, given, between, bind_eq_ok_iff.mpr ⟨_, _, resolved, ?_⟩, mean, ?_, distinct⟩
  · exact bind_eq_ok_iff.mpr ⟨(), between, enter_eq_ok (s := { s with node := _ }) deep, rfl⟩
  · -- As many different fields as were written, and all of them among these, are the ones that were written.
    have lengths := congrArg List.length keys
    rw [List.length_map, List.length_map, long, List.length_map] at lengths
    exact ((List.Nodup.of_map _ distinct).subperm among).perm_of_length_le
      (Nat.le_of_eq lengths)

end Spot

end Rally.Yaml
