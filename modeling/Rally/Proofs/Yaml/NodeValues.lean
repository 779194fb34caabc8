import Rally.Yaml.Reading
/-!
# What the nodes of a document tell

A node tells a value if the value is read there, which does not depend on the way to the node. Reading follows
aliases, so it leads from one number of aliases that were followed to another (`Document.Tells`).
-/

namespace Rally.Yaml

variable {α β : Type}

/-- Two readers that run one after the other succeed if both do. -/
theorem bind_eq_ok_iff {m : Reader α} {f : α → Reader β} {count : Nat} {result : β × Nat} :
    (m >>= f) count = .ok result ↔
      ∃ a between, m count = .ok (a, between) ∧ f a between = .ok result := by
  rw [show (m >>= f) count = (m count >>= fun middle => f middle.1 middle.2) from rfl]
  cases first : m count with
  | error complaint =>
    constructor
    · intro done
      cases done
    · rintro ⟨_, _, none, _⟩
      cases none
  | ok middle =>
    obtain ⟨a, between⟩ := middle
    constructor
    · intro done
      exact ⟨a, between, rfl, done⟩
    · rintro ⟨_, _, same, done⟩
      cases same
      exact done

/-- What is at hand is read without further aliases. -/
theorem pure_eq_ok_iff {a b : α} {count after : Nat} :
    (pure a : Reader α) count = .ok (b, after) ↔ b = a ∧ after = count := by
  constructor
  · intro done
    cases done
    exact ⟨rfl, rfl⟩
  · rintro ⟨rfl, rfl⟩
    rfl

mutual

/-- Whether a node tells a value, where only so many collections may nest and the number of aliases that were
followed grows from one to another. -/
inductive Document.Tells (document : Document) : Nat → Node → Value → Nat → Nat → Prop where
  /-- An alias tells what its node does. -/
  | follow {depth : Nat} {mark : Mark} {number : Nat} {node : Node} {read : Value}
      {before after : Nat} (target : document.node? number = some node)
      (direct : ∀ mark other, node ≠ .alias mark other)
      (few : before + 1 ≤ document.size * aliasesPerNode)
      (tells : document.Tells depth node read (before + 1) after) :
      document.Tells depth (.alias mark number) read before after
  /-- A scalar tells what it means. -/
  | scalar {depth : Nat} {mark : Mark} {tag : Option String} {style : ScalarStyle}
      {text : String} {value read : Value} {count : Nat}
      (means : (Scalar.resolve tag style text).value? = some value)
      (named : ∀ s : Spot, s.labelled tag value = pure read) :
      document.Tells depth (.scalar mark tag style text) read count count
  /-- A sequence tells what its items do. -/
  | sequence {depth : Nat} {mark : Mark} {tag : Option String} {items : List Node}
      {values : List Value} {read : Value} {before after : Nat}
      (each : document.TellsItems depth items values before after)
      (named : ∀ s : Spot, s.labelled tag (.sequence values) = pure read) :
      document.Tells (depth + 1) (.sequence mark tag items) read before after
  /-- A mapping tells what its entries do, no two of which have the same key. -/
  | mapping {depth : Nat} {mark : Mark} {tag : Option String} {entries : List (Node × Node)}
      {pairs : List (Value × Value)} {read : Value} {before after : Nat}
      (each : document.TellsEntries depth entries pairs before after)
      (apart : pairs.Pairwise fun earlier later => later.1.same earlier.1 = false)
      (named : ∀ s : Spot, s.labelled tag (.mapping pairs) = pure read) :
      document.Tells (depth + 1) (.mapping mark tag entries) read before after

/-- Whether nodes tell values, one after the other. -/
inductive Document.TellsItems (document : Document) :
    Nat → List Node → List Value → Nat → Nat → Prop where
  /-- No nodes tell no values. -/
  | nil {depth count : Nat} : document.TellsItems depth [] [] count count
  /-- A node tells a value, and the others go on. -/
  | cons {depth : Nat} {node : Node} {nodes : List Node} {read : Value} {values : List Value}
      {before between after : Nat} (first : document.Tells depth node read before between)
      (rest : document.TellsItems depth nodes values between after) :
      document.TellsItems depth (node :: nodes) (read :: values) before after

/-- Whether the keys and values of entries tell those of pairs, one after the other. -/
inductive Document.TellsEntries (document : Document) :
    Nat → List (Node × Node) → List (Value × Value) → Nat → Nat → Prop where
  /-- No entries tell no pairs. -/
  | nil {depth count : Nat} : document.TellsEntries depth [] [] count count
  /-- A key and its value tell a pair, and the other entries go on. -/
  | cons {depth : Nat} {key node : Node} {entries : List (Node × Node)} {name value : Value}
      {pairs : List (Value × Value)} {before between behind after : Nat}
      (keyed : document.Tells depth key name before between)
      (valued : document.Tells depth node value between behind)
      (rest : document.TellsEntries depth entries pairs behind after) :
      document.TellsEntries depth ((key, node) :: entries) ((name, value) :: pairs) before after

end

namespace Spot

variable {s t : Spot} {read value : Value} {before after : Nat}

/-- A node that is no alias is found where it is, and an alias leads to its node. -/
theorem resolve_eq_ok_iff :
    s.resolve before = .ok (t, after) ↔
      ((∀ mark number, s.node ≠ .alias mark number) ∧ t = s ∧ after = before) ∨
      ∃ mark number node, s.node = .alias mark number ∧ s.document.node? number = some node ∧
        before + 1 ≤ s.document.size * aliasesPerNode ∧ t = { s with node } ∧ after = before + 1 := by
  cases here : s.node with
  | «alias» mark number =>
    rw [resolve]
    simp only [here]
    constructor
    · intro done
      obtain ⟨_, _, got, done⟩ := bind_eq_ok_iff.mp done
      cases got
      obtain ⟨_, _, put, done⟩ := bind_eq_ok_iff.mp done
      cases put
      by_cases many : s.document.size * aliasesPerNode < before + 1
      · rw [if_pos many] at done
        cases done
      · rw [if_neg many] at done
        cases found : s.document.node? number with
        | none =>
          rw [found] at done
          cases done
        | some node =>
          rw [found] at done
          cases done
          exact .inr ⟨mark, number, node, rfl, found, Nat.le_of_not_lt many, rfl, rfl⟩
    · rintro (⟨direct, -⟩ | ⟨_, _, node, same, found, few, rfl, rfl⟩)
      · exact absurd rfl (direct mark number)
      · cases same
        refine bind_eq_ok_iff.mpr ⟨before, before, rfl, bind_eq_ok_iff.mpr ⟨(), before + 1, rfl, ?_⟩⟩
        rw [if_neg (Nat.not_lt.mpr few), found]
        rfl
  | _ =>
    have step : s.resolve = pure s := by
      rw [resolve]
      simp only [here]
    rw [step, pure_eq_ok_iff]
    simp

/-- A node that is no alias is found where it is. -/
theorem resolve_eq_pure (direct : ∀ mark number, s.node ≠ .alias mark number) :
    s.resolve = pure s :=
  funext fun _ => resolve_eq_ok_iff.mpr (.inl ⟨direct, rfl, rfl⟩)

/-- The name of a tag is put in front of a value wherever it stands, or nowhere. -/
theorem labelled_eq_ok_iff {tag : Option String} :
    s.labelled tag value before = .ok (read, after) ↔
      (∀ t : Spot, t.labelled tag value = pure read) ∧ after = before := by
  constructor
  · intro done
    cases tag with
    | none =>
      cases done
      exact ⟨fun _ => rfl, rfl⟩
    | some tag =>
      simp only [labelled] at done ⊢
      split at done
      · next global =>
        cases done
        exact ⟨fun _ => by rw [if_pos global], rfl⟩
      · next here =>
        split at done
        · cases done
        · next named =>
          cases done
          exact ⟨fun _ => by rw [if_neg here, if_neg named], rfl⟩
  · rintro ⟨named, rfl⟩
    rw [named]
    rfl

/-- A node tells what is told behind the aliases. -/
theorem tells_iff_resolve {depth : Nat} :
    s.document.Tells depth s.node read before after ↔
      ∃ t between, s.resolve before = .ok (t, between) ∧
        (∀ mark number, t.node ≠ .alias mark number) ∧
        t.document.Tells depth t.node read between after := by
  constructor
  · intro tells
    cases here : s.node with
    | «alias» mark number =>
      rw [here] at tells
      cases tells with
      | follow target direct few tells =>
        exact ⟨_, _, resolve_eq_ok_iff.mpr (.inr ⟨_, _, _, here, target, few, rfl, rfl⟩), direct, tells⟩
    | _ =>
      have direct : ∀ mark number, s.node ≠ .alias mark number := by simp [here]
      exact ⟨s, before, resolve_eq_ok_iff.mpr (.inl ⟨direct, rfl, rfl⟩), direct, tells⟩
  · rintro ⟨t, between, resolved, direct, tells⟩
    rcases resolve_eq_ok_iff.mp resolved with
      ⟨-, rfl, rfl⟩ | ⟨_, _, node, here, target, few, rfl, rfl⟩
    · exact tells
    · rw [here]
      exact .follow target direct few tells

/-- A scalar is read as what it tells. -/
theorem scalar_eq_ok_iff {document : Document} {depth : Nat} {mark : Mark} {tag : Option String}
    {style : ScalarStyle} {text : String} :
    s.scalar tag style text before = .ok (read, after) ↔
      document.Tells depth (.scalar mark tag style text) read before after := by
  rw [scalar]
  constructor
  · intro done
    cases means : (Scalar.resolve tag style text).value? with
    | none =>
      rw [means] at done
      cases done
    | some value =>
      rw [means] at done
      obtain ⟨named, rfl⟩ := labelled_eq_ok_iff.mp done
      exact .scalar means named
  · intro tells
    cases tells with
    | scalar means named =>
      rw [means]
      exact labelled_eq_ok_iff.mpr ⟨named, rfl⟩

end Spot

section Adequacy

variable {depth : Nat}
  (parts : ∀ {s : Spot} {read : Value} {before after : Nat},
    readValue depth s before = .ok (read, after) ↔ s.document.Tells depth s.node read before after)

include parts

/-- Items are read as what they tell. -/
theorem mapM_eq_ok_iff {s : Spot} {nodes : List Node} {start : Nat} {values : List Value}
    {before after : Nat} :
    ((nodes.zipIdx start).mapM fun (node, i) => readValue depth (s.part (.item i) node) :
        Reader (List Value)) before = .ok (values, after) ↔
      s.document.TellsItems depth nodes values before after := by
  induction nodes generalizing start values before with
  | nil =>
    rw [List.zipIdx_nil, List.mapM_nil, pure_eq_ok_iff]
    constructor
    · rintro ⟨rfl, rfl⟩
      exact .nil
    · intro tells
      cases tells
      exact ⟨rfl, rfl⟩
  | cons node nodes ih =>
    rw [List.zipIdx_cons, List.mapM_cons]
    constructor
    · intro done
      obtain ⟨read, between, first, done⟩ := bind_eq_ok_iff.mp done
      obtain ⟨others, _, rest, done⟩ := bind_eq_ok_iff.mp done
      obtain ⟨rfl, rfl⟩ := pure_eq_ok_iff.mp done
      exact .cons (parts.mp first) (ih.mp rest)
    · intro tells
      cases tells with
      | cons first rest =>
        exact bind_eq_ok_iff.mpr ⟨_, _, parts.mpr first,
          bind_eq_ok_iff.mpr ⟨_, _, ih.mpr rest, pure_eq_ok_iff.mpr ⟨rfl, rfl⟩⟩⟩

/-- An entry is read as what it tells if its key is new. -/
theorem entry_eq_ok_iff {s : Spot} {key node : Node} {former pairs : List (Value × Value)}
    {before after : Nat} :
    (do
        let key ← readValue depth (s.ofKey key)
        if hasKey key former then s.complain .noValue
        let value ← readValue depth (s.part .unnamed node)
        return (key, value) :: former : Reader (List (Value × Value))) before = .ok (pairs, after) ↔
      ∃ name value between, s.document.Tells depth key name before between ∧
        hasKey name former = false ∧ s.document.Tells depth node value between after ∧
        pairs = (name, value) :: former := by
  rw [bind_eq_ok_iff]
  constructor
  · rintro ⟨name, between, keyed, done⟩
    cases new : hasKey name former with
    | true =>
      rw [new] at done
      cases done
    | false =>
      rw [new] at done
      obtain ⟨value, _, valued, done⟩ := bind_eq_ok_iff.mp done
      obtain ⟨rfl, rfl⟩ := pure_eq_ok_iff.mp done
      exact ⟨name, value, between, parts.mp keyed, new, parts.mp valued, rfl⟩
  · rintro ⟨name, value, between, keyed, new, valued, rfl⟩
    refine ⟨name, between, parts.mpr keyed, ?_⟩
    rw [new]
    exact bind_eq_ok_iff.mpr ⟨value, after, parts.mpr valued, pure_eq_ok_iff.mpr ⟨rfl, rfl⟩⟩

/-- Entries are read as what they tell if no two keys are the same. -/
theorem foldlM_eq_ok_iff {s : Spot} {entries : List (Node × Node)}
    {former pairs : List (Value × Value)} {before after : Nat} :
    (entries.foldlM (fun pairs (key, value) => do
        let key ← readValue depth (s.ofKey key)
        if hasKey key pairs then s.complain .noValue
        let value ← readValue depth (s.part .unnamed value)
        return (key, value) :: pairs) former : Reader (List (Value × Value))) before =
        .ok (pairs, after) ↔
      ∃ read, pairs = read.reverse ++ former ∧ s.document.TellsEntries depth entries read before after ∧
        (∀ pair ∈ read, hasKey pair.1 former = false) ∧
        read.Pairwise fun earlier later => later.1.same earlier.1 = false := by
  induction entries generalizing former before with
  | nil =>
    rw [List.foldlM_nil, pure_eq_ok_iff]
    constructor
    · rintro ⟨rfl, rfl⟩
      exact ⟨[], rfl, .nil, fun _ none => absurd none List.not_mem_nil, .nil⟩
    · rintro ⟨read, rfl, tells, -, -⟩
      cases tells
      exact ⟨rfl, rfl⟩
  | cons entry entries ih =>
    obtain ⟨key, node⟩ := entry
    rw [List.foldlM_cons, bind_eq_ok_iff]
    constructor
    · rintro ⟨_, behind, step, done⟩
      obtain ⟨name, value, between, keyed, new, valued, rfl⟩ := (entry_eq_ok_iff parts).mp step
      obtain ⟨read, rfl, rest, fresh, apart⟩ := ih.mp done
      refine ⟨(name, value) :: read, by simp, .cons keyed valued rest, ?_, ?_⟩
      · refine List.forall_mem_cons.mpr ⟨new, fun pair inside => ?_⟩
        exact (Bool.or_eq_false_iff.mp (fresh pair inside)).2
      · refine .cons (fun pair inside => ?_) apart
        exact (Bool.or_eq_false_iff.mp (fresh pair inside)).1
    · rintro ⟨read, rfl, tells, fresh, apart⟩
      cases tells with
      | @cons _ _ _ _ name value read _ between behind _ keyed valued rest =>
        obtain ⟨new, others⟩ := List.forall_mem_cons.mp fresh
        obtain ⟨first, apart⟩ := List.pairwise_cons.mp apart
        refine ⟨(name, value) :: former, behind,
          (entry_eq_ok_iff parts).mpr ⟨name, value, between, keyed, new, valued, rfl⟩, ?_⟩
        refine ih.mpr ⟨read, by simp, rest, fun pair inside => ?_, apart⟩
        rw [hasKey, first pair inside, others pair inside]
        rfl

end Adequacy

/-- A value is read at a spot just where its node tells it. -/
theorem readValue_eq_ok_iff {depth : Nat} {s : Spot} {read : Value} {before after : Nat} :
    readValue depth s before = .ok (read, after) ↔
      s.document.Tells depth s.node read before after := by
  -- Behind the aliases, each kind of node is read as its constructor tells, and its parts one level deeper.
  induction depth generalizing s read before after with
  | zero =>
    rw [readValue, bind_eq_ok_iff, Spot.tells_iff_resolve]
    refine exists_congr fun t => exists_congr fun between => and_congr_right fun _ => ?_
    cases here : t.node with
    | scalar mark tag style text =>
      exact Spot.scalar_eq_ok_iff.trans (and_iff_right fun _ _ => Node.noConfusion).symm
    | «alias» mark number =>
      constructor
      · intro done
        cases done
      · rintro ⟨direct, -⟩
        exact absurd rfl (direct _ _)
    | _ =>
      constructor
      · intro done
        cases done
      · rintro ⟨-, tells⟩
        cases tells
  | succ depth ih =>
    rw [readValue, bind_eq_ok_iff, Spot.tells_iff_resolve]
    refine exists_congr fun t => exists_congr fun between => and_congr_right fun _ => ?_
    cases here : t.node with
    | «alias» mark number =>
      constructor
      · intro done
        cases done
      · rintro ⟨direct, tells⟩
        exact absurd rfl (direct _ _)
    | scalar mark tag style text =>
      exact Spot.scalar_eq_ok_iff.trans (and_iff_right fun _ _ => Node.noConfusion).symm
    | sequence mark tag items =>
      simp only [bind_eq_ok_iff, mapM_eq_ok_iff ih, Spot.labelled_eq_ok_iff]
      constructor
      · rintro ⟨values, _, each, named, rfl⟩
        exact ⟨by simp, .sequence each named⟩
      · rintro ⟨-, tells⟩
        cases tells with
        | sequence each named => exact ⟨_, _, each, named, rfl⟩
    | mapping mark tag entries =>
      simp only [bind_eq_ok_iff, foldlM_eq_ok_iff ih, Spot.labelled_eq_ok_iff]
      constructor
      · rintro ⟨_, _, ⟨read, rfl, each, -, apart⟩, named, rfl⟩
        rw [List.append_nil, List.reverse_reverse] at named
        exact ⟨by simp, .mapping each apart named⟩
      · rintro ⟨-, tells⟩
        cases tells with
        | mapping each apart named =>
          exact ⟨_, _, ⟨_, rfl, each, fun _ _ => rfl, apart⟩, by simpa using named, rfl⟩

end Rally.Yaml
