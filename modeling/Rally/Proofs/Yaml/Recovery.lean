import Rally.Proofs.Yaml.NodeValues
/-!
# Recovering data

A reader recovers data if it gives something alike just where it is able to: if it is, it succeeds, and
whatever it gives is alike only then (`Recovers`). Readers that run one after the other recover the whole where
each of them recovers its part (`Recovers.bind`).
-/

namespace Rally.Yaml

variable {α β : Type}

/-- Whether a reader that leads from one number of followed aliases to another gives something alike just where
it is able to. -/
structure Recovers (reader : Reader α) (before after : Nat) (alike : α → Prop) (able : Prop) :
    Prop where
  /-- If it is able to, it succeeds. -/
  succeeds : able → ∃ a, reader before = .ok (a, after)
  /-- What it gives is alike only if it is able to. -/
  gives {a : α} {last : Nat} : reader before = .ok (a, last) → last = after ∧ (alike a ↔ able)

namespace Recovers

variable {m : Reader α} {f : α → Reader β} {alike : α → Prop} {whole : β → Prop}
  {able : Prop} {before between after : Nat}

/-- A reader that succeeds is able to if what it gives is alike. -/
theorem of_ok {a : α} (reads : m before = .ok (a, after)) (words : alike a ↔ able) :
    Recovers m before after alike able where
  succeeds _ := ⟨a, reads⟩
  gives done := by
    rw [reads] at done
    cases done
    exact ⟨rfl, words⟩

/-- A reader that complains recovers nothing. -/
theorem of_error {complaint : Complaint} (reads : m before = .error complaint) (unable : ¬able) :
    Recovers m before after alike able where
  succeeds able := absurd able unable
  gives done := by
    rw [reads] at done
    cases done

/-- Whether data can be recovered may be put in other words. -/
theorem congr {other : Prop} (recovers : Recovers m before after alike able) (words : able ↔ other) :
    Recovers m before after alike other where
  succeeds able := recovers.succeeds (words.mpr able)
  gives done := ⟨(recovers.gives done).1, (recovers.gives done).2.trans words⟩

/-- Behind what succeeds, the rest decides. -/
theorem after_ok {a : α} (first : m before = .ok (a, between))
    (next : Recovers (f a) between after whole able) :
    Recovers (m >>= f) before after whole able where
  succeeds able := by
    obtain ⟨b, done⟩ := next.succeeds able
    exact ⟨b, bind_eq_ok_iff.mpr ⟨a, between, first, done⟩⟩
  gives done := by
    obtain ⟨_, _, same, done⟩ := bind_eq_ok_iff.mp done
    rw [first] at same
    cases same
    exact next.gives done

/-- What follows a reader decides if it recovers the whole from what is alike. -/
theorem bind (first : Recovers m before between alike able)
    (next : ∀ a, m before = .ok (a, between) → Recovers (f a) between after whole (alike a)) :
    Recovers (m >>= f) before after whole able where
  succeeds able := by
    obtain ⟨a, reads⟩ := first.succeeds able
    obtain ⟨b, done⟩ := (next a reads).succeeds ((first.gives reads).2.mpr able)
    exact ⟨b, bind_eq_ok_iff.mpr ⟨a, between, reads, done⟩⟩
  gives done := by
    obtain ⟨a, _, reads, done⟩ := bind_eq_ok_iff.mp done
    obtain ⟨rfl, words⟩ := first.gives reads
    obtain ⟨same, parts⟩ := (next a reads).gives done
    exact ⟨same, parts.trans words⟩

/-- What else has to hold may be asked for together. -/
theorem attach (recovers : Recovers m before after alike able) (other : Prop) :
    Recovers m before after (fun a => alike a ∧ other) (able ∧ other) where
  succeeds both := recovers.succeeds both.1
  gives done := ⟨(recovers.gives done).1, and_congr_left' (recovers.gives done).2⟩

end Recovers

end Rally.Yaml
