import Rally.Proofs.Text.Cuts
import Rally.Topology.Endpoint
/-!
# The texts of endpoints

An endpoint is legible if both of its names are there and the name of its port has no dot. Exactly the
texts of legible endpoints are read, each as its endpoint; every other text is refused and named in the
complaint (`Endpoint.reads_texts`).
-/

namespace Rally.Endpoint

/-- Whether the text of an endpoint tells which one it is. -/
structure Legible (endpoint : Endpoint) : Prop where
  /-- The component has a name. -/
  component : endpoint.component ≠ ""
  /-- The port has a name. -/
  port : endpoint.port ≠ ""
  /-- The name of the port holds no dot. -/
  plain : '.' ∉ endpoint.port.toList

instance (endpoint : Endpoint) : Decidable endpoint.Legible :=
  decidable_of_iff (endpoint.component ≠ "" ∧ endpoint.port ≠ "" ∧ '.' ∉ endpoint.port.toList)
    ⟨fun ⟨component, port, plain⟩ => ⟨component, port, plain⟩,
      fun legible => ⟨legible.component, legible.port, legible.plain⟩⟩

/-- The characters of the text of an endpoint. -/
theorem toList_text (endpoint : Endpoint) :
    endpoint.text.toList = endpoint.component.toList ++ '.' :: endpoint.port.toList := by
  have dot : ".".toList = ['.'] := rfl
  rw [text, String.toList_append, String.toList_append, dot, List.append_assoc,
    List.singleton_append]

/-- A text is read as an endpoint exactly where it is the text of that endpoint and tells which one it is. -/
theorem parse_eq_ok_iff {text : String} {endpoint : Endpoint} :
    parse text = .ok endpoint ↔ endpoint.text = text ∧ endpoint.Legible := by
  constructor
  · intro reads
    rw [parse] at reads
    split at reads
    · next component port cut =>
      obtain ⟨whole, last⟩ := Text.splitLast_eq_some_iff.mp cut
      split at reads
      · cases reads
      · next named =>
        cases reads
        rw [Bool.or_eq_true, List.isEmpty_iff, List.isEmpty_iff, not_or] at named
        refine ⟨String.toList_injective ?_, ?_, ?_, ?_⟩
        · rw [toList_text, String.toList_ofList, String.toList_ofList, whole]
        · rw [Ne, ← String.toList_eq_nil_iff, String.toList_ofList]
          exact named.1
        · rw [Ne, ← String.toList_eq_nil_iff, String.toList_ofList]
          exact named.2
        · rw [String.toList_ofList]
          exact last
    · cases reads
  · rintro ⟨rfl, legible⟩
    have named : ¬(endpoint.component.toList.isEmpty || endpoint.port.toList.isEmpty) = true := by
      rw [Bool.or_eq_true, List.isEmpty_iff, List.isEmpty_iff, String.toList_eq_nil_iff,
        String.toList_eq_nil_iff, not_or]
      exact ⟨legible.component, legible.port⟩
    rw [parse, toList_text, Text.splitLast_eq_some_iff.mpr ⟨rfl, legible.plain⟩]
    simp only [if_neg named, String.ofList_toList]

/-- Only the complaint about a text that is no endpoint is made, and it names the whole text. -/
theorem complaint_of_parse {text : String} {problem : ConfigError}
    (refused : parse text = .error problem) : problem = .invalidEndpoint text := by
  rw [parse] at refused
  split at refused
  · split at refused
    · cases refused
      rfl
    · cases refused
  · cases refused
    rfl

/-- Whether a text has a last dot with something on both sides of it. -/
def HasPort (text : String) : Prop :=
  ∃ before behind, text.toList = before ++ '.' :: behind ∧ '.' ∉ behind ∧
    before ≠ [] ∧ behind ≠ []

/-- The texts of legible endpoints are those that have a last dot with something on both sides. -/
theorem hasPort_iff {text : String} :
    HasPort text ↔ ∃ endpoint : Endpoint, endpoint.text = text ∧ endpoint.Legible := by
  constructor
  · rintro ⟨before, behind, whole, last, component, port⟩
    refine ⟨⟨String.ofList before, String.ofList behind⟩, String.toList_injective ?_, ?_, ?_, ?_⟩
    · rw [toList_text, String.toList_ofList, String.toList_ofList, whole]
    · rwa [Ne, ← String.toList_eq_nil_iff, String.toList_ofList]
    · rwa [Ne, ← String.toList_eq_nil_iff, String.toList_ofList]
    · rwa [String.toList_ofList]
  · rintro ⟨endpoint, rfl, legible⟩
    exact ⟨_, _, endpoint.toList_text, legible.plain,
      mt String.toList_eq_nil_iff.mp legible.component,
      mt String.toList_eq_nil_iff.mp legible.port⟩

/-- A text is read just where it has a last dot with something on both sides, and then as the legible
endpoint whose text it is; any other text is named in the complaint. An endpoint is read back from its
text just where it is legible. -/
theorem reads_texts (text : String) :
    ((∃ endpoint, parse text = .ok endpoint) ↔ HasPort text) ∧
      (∀ endpoint, parse text = .ok endpoint ↔ endpoint.text = text ∧ endpoint.Legible) ∧
      (∀ problem, parse text = .error problem ↔
        ¬HasPort text ∧ problem = .invalidEndpoint text) ∧
      ∀ endpoint : Endpoint, parse endpoint.text = .ok endpoint ↔ endpoint.Legible := by
  have reads : (∃ endpoint, parse text = .ok endpoint) ↔ HasPort text := by
    simp only [parse_eq_ok_iff, hasPort_iff]
  refine ⟨reads, fun _ => parse_eq_ok_iff, fun problem => ⟨fun refused => ?_, ?_⟩, fun endpoint => ?_⟩
  · refine ⟨fun has => ?_, complaint_of_parse refused⟩
    obtain ⟨endpoint, read⟩ := reads.mpr has
    rw [refused] at read
    cases read
  · rintro ⟨missing, rfl⟩
    cases refused : parse text with
    | ok endpoint => exact absurd (reads.mp ⟨endpoint, refused⟩) missing
    | error problem => rw [complaint_of_parse refused]
  · rw [parse_eq_ok_iff, and_iff_right rfl]

/-- A dot in the name of a port is taken for the dot in front of it. -/
example : (⟨"a", "b.c"⟩ : Endpoint).text = (⟨"a.b", "c"⟩ : Endpoint).text := by decide

end Rally.Endpoint
