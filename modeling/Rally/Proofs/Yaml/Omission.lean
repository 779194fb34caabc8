import Rally.Proofs.Yaml.Fields
/-!
# Fields that are left out

A field that holds what stands for it anyway changes nothing: the fields of a mapping are read as if it were
not there, wherever it stands among them (`Spot.fields_insert`), and so is the whole mapping
(`ReadsFields.fillsIn`).
-/

namespace Rally.Yaml

variable {α β : Type}

/-- Two computations that go on alike wherever the first part succeeds are the same. -/
theorem bind_eq_bind {m : Reader α} {f g : α → Reader β}
    (alike : ∀ count a after, m count = .ok (a, after) → f a = g a) : m >>= f = m >>= g := by
  funext count
  rw [show (m >>= f) count = (m count >>= fun middle => f middle.1 middle.2) from rfl,
    show (m >>= g) count = (m count >>= fun middle => g middle.1 middle.2) from rfl]
  cases first : m count with
  | error complaint => rfl
  | ok middle =>
    obtain ⟨a, after⟩ := middle
    exact congrFun (alike count a after first) after

namespace Spot

/-- Whether a spot means a value whatever number of aliases were followed, since it follows none. -/
def Holds (s : Spot) (value : Value) : Prop := ∀ count, s.Means value count count

/-- A text that is held is read. -/
theorem Holds.text {s : Spot} {text : String} (holds : s.Holds (.string text)) (expected : String) :
    s.text expected = pure text :=
  funext fun count => (holds count).text expected

variable {s : Spot} {names : List String} {name : String} {read : String → Spot → α → Reader α}

/-- Whether no key among some entries is read as a name. -/
def Lacks (s : Spot) (name : String) (entries : List (Node × Node)) : Prop :=
  ∀ entry ∈ entries, ∀ count after,
    (s.ofKey entry.1).text "field identifier" count ≠ .ok (name, after)

/-- Whether a name occurred makes no difference where no key is read as it. -/
theorem fields_seen {entries : List (Node × Node)} (lacks : s.Lacks name entries)
    {seen seen' : List String}
    (agree : ∀ other, other ≠ name → seen.contains other = seen'.contains other) (record : α) :
    s.fields names entries read seen record = s.fields names entries read seen' record := by
  induction entries generalizing seen seen' record with
  | nil => rfl
  | cons entry rest ih =>
    obtain ⟨key, value⟩ := entry
    have others : s.Lacks name rest := fun entry inside =>
      lacks entry (List.mem_cons_of_mem _ inside)
    rw [fields]
    refine bind_eq_bind fun count found after reads => ?_
    have differ : found ≠ name := fun same =>
      lacks _ List.mem_cons_self count after (same ▸ reads)
    rw [agree found differ]
    split
    · exact ih others agree record
    · split
      · rfl
      · refine bind_eq_bind fun _ next _ _ => ih others (fun other differ => ?_) next
        rw [List.contains_cons, List.contains_cons, agree other differ]

/-- A field that leaves the record as it is may be left out, if the others keep what this rests on. -/
theorem fields_insert {Unset : α → Prop} {key value : Node}
    (named : (s.ofKey key).Holds (.string name)) (known : name ∈ names)
    (leaves : ∀ record, Unset record → read name (s.part (stepOf key) value) record = pure record)
    (keeps : ∀ other, other ≠ name → other ∈ names →
      ∀ part record count next after, Unset record →
        read other part record count = .ok (next, after) → Unset next)
    {before behind : List (Node × Node)} (lacks : s.Lacks name (before ++ behind))
    (seen : List String) (new : seen.contains name = false) {record : α} (unset : Unset record) :
    s.fields names (before ++ (key, value) :: behind) read seen record =
      s.fields names (before ++ behind) read seen record := by
  induction before generalizing seen record with
  | nil =>
    rw [List.nil_append, List.nil_append, fields, named.text]
    simp only [pure_bind, List.contains_iff_mem.mpr known, new, Bool.not_true,
      if_neg Bool.false_ne_true, leaves record unset]
    refine fields_seen lacks (fun other differ => ?_) record
    rw [List.contains_cons, beq_false_of_ne differ, Bool.false_or]
  | cons entry rest ih =>
    obtain ⟨first, content⟩ := entry
    have others : s.Lacks name (rest ++ behind) := fun entry inside =>
      lacks entry (List.mem_cons_of_mem _ inside)
    rw [List.cons_append, List.cons_append, fields, fields]
    refine bind_eq_bind fun count found after reads => ?_
    have differ : found ≠ name := fun same =>
      lacks _ List.mem_cons_self count after (same ▸ reads)
    by_cases among : names.contains found = true
    · simp only [among, Bool.not_true, if_neg Bool.false_ne_true]
      split
      · rfl
      · refine bind_eq_bind fun _ next _ done => ih others (found :: seen) ?_ ?_
        · rw [List.contains_cons, beq_false_of_ne (Ne.symm differ), new]
          rfl
        · exact keeps found differ (List.contains_iff_mem.mp among) _ _ _ _ _ unset done
    · simp only [among, Bool.not_false, if_pos]
      exact ih others seen new unset

/-- The fields of a mapping are read without regard to what else the spot shows, except for its place. -/
theorem fields_node (node : Node) (same : node.mark = s.node.mark) (entries : List (Node × Node))
    (seen : List String) (record : α) :
    ({ s with node } : Spot).fields names entries read seen record =
      s.fields names entries read seen record := by
  induction entries generalizing seen record with
  | nil => rfl
  | cons entry rest ih =>
    obtain ⟨key, value⟩ := entry
    have complain (misfit : Misfit) :
        ({ s with node } : Spot).complain misfit = (s.complain misfit : Reader α) := by
      rw [Spot.complain, Spot.complain]
      simp only [same]
    rw [fields, fields]
    simp only [ih, complain]
    rfl

end Spot

/-- Whether a mapping without a field is read as if this held some value. -/
def FillsIn (reader : Spot → Reader β) (name : String) (default : Value) : Prop :=
  ∀ (s : Spot) (mark : Mark) (tag : Option String) (before behind : List (Node × Node))
    (key value : Node), (s.ofKey key).Holds (.string name) →
    (∀ step, (s.part step value).Holds default) → s.Lacks name (before ++ behind) →
    reader { s with node := .mapping mark tag (before ++ (key, value) :: behind) } =
      reader { s with node := .mapping mark tag (before ++ behind) }

/-- A field may be left out if it leaves the record as it begins, and if the other fields keep what this
rests on. -/
theorem ReadsFields.fillsIn {reader : Spot → Reader β} {names : List String}
    {read : String → Spot → α → Reader α} {start : α} {finish : Spot → α → Reader β}
    (reads : ReadsFields reader names read start finish) (Unset : α → Prop) (unset : Unset start)
    {name : String} (known : name ∈ names) {default : Value}
    (leaves : ∀ part : Spot, part.Holds default → ∀ record, Unset record →
      read name part record = pure record)
    (keeps : ∀ other, other ≠ name → other ∈ names →
      ∀ part record count next after, Unset record →
        read other part record count = .ok (next, after) → Unset next) :
    FillsIn reader name default := by
  obtain ⟨expected, shape⟩ := reads.shape
  intro s mark tag before behind key value named holds lacks
  -- Both mappings are taken apart at one spot, whose node shows no more than where they begin.
  let t : Spot := { s with node := .mapping mark tag [] }
  have opened (entries : List (Node × Node)) :
      reader { s with node := .mapping mark tag entries } =
        t.enter >>= fun _ => t.fields names entries read [] start >>= finish t := by
    have entered : ({ s with node := .mapping mark tag entries } : Spot).entries expected =
        t.enter >>= fun _ => pure ({ s with node := .mapping mark tag entries }, entries) := by
      rw [Spot.entries, Spot.resolve_eq_pure fun _ _ => Node.noConfusion, pure_bind]
      rfl
    rw [shape, entered, bind_assoc, ← reads.marks t (.mapping mark tag entries) rfl,
      ← t.fields_node (.mapping mark tag entries) rfl]
    simp only [pure_bind]
    rfl
  have left := Spot.fields_insert (s := t) named known (leaves _ (holds _)) keeps lacks [] rfl unset
  rw [opened, opened, left]

end Rally.Yaml
