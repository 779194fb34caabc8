import Rally.Proofs.Text.Cuts
import Rally.Proofs.Text.Octets
import Rally.Topology.Parameters
/-!
# Parameters from texts

Each line of a text stands for one entry or none, whatever ends it, so two texts with a line feed between
them set what the one and then the other sets (`parse_append`). A value between quotation marks is set as
it is, with all of its blanks, and the last one under a key counts (`reads_written`). The quotation marks are
single octets, so a text can always be cut behind the first and in front of the last of them.
-/

namespace Rally

namespace Keyed

variable {α β : Type}

/-- The first entries come first. -/
theorem get?_append (key : String) (first second : Keyed α) :
    get? key (first ++ second) = (get? key first).or (get? key second) := by
  induction first with
  | nil => rfl
  | cons entry rest ih =>
    obtain ⟨name, value⟩ := entry
    rw [List.cons_append, get?, get?, ih]
    split <;> rfl

/-- A change of all values is one of the value found. -/
theorem get?_map (key : String) (f : α → β) (entries : Keyed α) :
    get? key (entries.map fun (name, value) => (name, f value)) = (get? key entries).map f := by
  induction entries with
  | nil => rfl
  | cons entry rest ih =>
    obtain ⟨name, value⟩ := entry
    rw [List.map_cons, get?, get?, ih]
    split <;> rfl

/-- The value of a name that comes last. -/
def last? (key : String) (entries : Keyed α) : Option α := get? key entries.reverse

end Keyed

namespace Parameters

/-- The entries that the lines of a text stand for. -/
def entriesOf (text : String) : Keyed String :=
  (Text.lines text.toList).filterMap entryOfLine?

/-- Sets parameters one after the other. -/
def insertAll (params : Parameters) (entries : Keyed String) : Parameters :=
  entries.foldl (fun params (key, value) => params.insert key value) params

/-- A text sets the entries of its lines. -/
theorem parse_eq (params : Parameters) (text : String) :
    params.parse text = params.insertAll (entriesOf text) := rfl

/-- A carriage return at the end of a line is a blank at the end of its value. -/
theorem entryOfLine?_dropReturn (line : List Char) :
    entryOfLine? (Text.dropReturn line) = entryOfLine? line := by
  rw [Text.dropReturn]
  split
  · next returns =>
    obtain ⟨start, rfl⟩ := List.getLast?_eq_some_iff.mp returns
    rw [List.dropLast_concat, entryOfLine?, entryOfLine?, Text.splitFirst_concat (by decide),
      Option.map_map]
    congr 1
    funext ⟨key, value⟩
    simp only [Function.comp_apply, Text.trim_concat (show Text.isBlank '\x0d' = true by decide)]
  · rfl

/-- The pieces of a text between its line feeds stand for the same entries as its lines. -/
theorem filterMap_linesOfPieces (pieces : List (List Char)) :
    (Text.linesOfPieces pieces).filterMap entryOfLine? = pieces.filterMap entryOfLine? := by
  induction pieces with
  | nil => rfl
  | cons piece others ih =>
    cases others with
    | nil =>
      rw [Text.linesOfPieces]
      split
      · next none =>
        rw [none]
        rfl
      · rfl
    | cons other rest =>
      rw [Text.linesOfPieces, List.filterMap_cons, List.filterMap_cons, entryOfLine?_dropReturn, ih]
      exact List.cons_ne_nil _ _

/-- The entries of a text are those of its pieces between line feeds. -/
theorem entriesOf_eq (text : String) :
    entriesOf text = (Text.pieces text.toList).filterMap entryOfLine? :=
  filterMap_linesOfPieces _

/-- Two texts with a line feed between them stand for the entries of both. -/
theorem entriesOf_append (first second : String) :
    entriesOf (first ++ "\n" ++ second) = entriesOf first ++ entriesOf second := by
  have feed : "\n".toList = ['\n'] := rfl
  rw [entriesOf_eq, entriesOf_eq, entriesOf_eq, String.toList_append, String.toList_append, feed,
    List.append_assoc, List.singleton_append, Text.pieces_append, List.filterMap_append]

/-- A text that ends with a line feed stands for no more entries than without it. -/
theorem entriesOf_feed (text : String) : entriesOf (text ++ "\n") = entriesOf text := by
  have ends : text ++ "\n" = text ++ "\n" ++ "" := String.append_empty.symm
  have none : entriesOf "" = [] := rfl
  rw [ends, entriesOf_append, none, List.append_nil]

/-- A text of two sets what the first one sets and then what the second one sets. -/
theorem parse_append (params : Parameters) (first second : String) :
    params.parse (first ++ "\n" ++ second) = (params.parse first).parse second := by
  rw [parse_eq, parse_eq, parse_eq, entriesOf_append, insertAll, List.foldl_append]
  rfl

/-- Of the entries of one name the last one is set; a name without one keeps its text. -/
theorem raw?_insertAll (params : Parameters) (entries : Keyed String) (key : String) :
    (params.insertAll entries).raw? key = (Keyed.last? key entries).or (params.raw? key) := by
  induction entries generalizing params with
  | nil => rfl
  | cons entry rest ih =>
    obtain ⟨name, value⟩ := entry
    have next : params.insertAll ((name, value) :: rest) =
      (params.insert name value).insertAll rest := rfl
    have first : (params.insert name value).raw? key =
        (Keyed.get? key [(name, value)]).or (params.raw? key) := by
      rw [Keyed.get?, Keyed.get?]
      split
      · next same =>
        rw [same]
        exact Keyed.get?_put_self key value params.entries
      · next differ => exact Keyed.get?_put_of_ne (Ne.symm differ) value params.entries
    rw [next, ih, first, Keyed.last?, Keyed.last?, List.reverse_cons, Keyed.get?_append,
      Option.or_assoc]

/-- A text between quotation marks. -/
def quoted (value : String) : String := "\"" ++ value ++ "\""

/-- The characters of a text between quotation marks. -/
theorem toList_quoted (value : String) :
    (quoted value).toList = '"' :: value.toList ++ ['"'] := by
  have mark : "\"".toList = ['"'] := rfl
  rw [quoted, String.toList_append, String.toList_append, mark, List.singleton_append]

/-- Quotation marks around a text are removed. -/
theorem unquote_quoted (value : String) : unquote (quoted value) = value := by
  rw [unquote, toList_quoted, List.cons_append]
  simp only [List.getLast?_concat, if_pos, List.dropLast_concat, String.ofList_toList]

/-- A text either is one between quotation marks or is left as it is. -/
theorem unquote_cases (stored : String) :
    (∃ value, stored = quoted value) ∨
      (¬∃ value, stored = quoted value) ∧ unquote stored = stored := by
  by_cases marked : ∃ value, stored = quoted value
  · exact .inl marked
  · refine .inr ⟨marked, ?_⟩
    rw [unquote]
    split
    · next rest starts =>
      refine if_neg fun ends => marked ?_
      obtain ⟨value, rfl⟩ := List.getLast?_eq_some_iff.mp ends
      refine ⟨String.ofList value, String.toList_injective ?_⟩
      rw [starts, toList_quoted, String.toList_ofList, List.cons_append]
    · rfl

/-- A text without the quotation marks around it, cut at octets: a text of two octets or more that begins
and ends with a quotation mark is cut behind its first octet and in front of its last one. -/
def cutQuotes? (stored : String) : Option String :=
  if 2 ≤ stored.utf8ByteSize ∧ stored.startsWith '"' = true ∧ stored.endsWith '"' = true then
    Text.between? stored 1 (stored.utf8ByteSize - 1)
  else some stored

/-- The texts that are cut at octets are those between quotation marks. -/
theorem quoted_iff (stored : String) :
    (2 ≤ stored.utf8ByteSize ∧ stored.startsWith '"' = true ∧ stored.endsWith '"' = true) ↔
      ∃ value, stored = quoted value := by
  constructor
  · rintro ⟨long, starts, ends⟩
    obtain ⟨rest, rfl⟩ := String.startsWith_char_iff_exists_append.mp starts
    have one : (String.singleton '"').utf8ByteSize = 1 := rfl
    rw [String.utf8ByteSize_append, one] at long
    rw [String.endsWith_char_eq_getLast?, beq_iff_eq, String.toList_append,
      String.toList_singleton] at ends
    -- More than one octet leaves a character behind the first mark, which is the last one of all.
    have more : rest.toList ≠ [] := by
      intro none
      rw [String.toList_eq_nil_iff.mp none, String.utf8ByteSize_empty] at long
      omega
    have whole := (List.dropLast_concat_getLast more).symm
    rw [whole, ← List.append_assoc, List.getLast?_concat, Option.some.injEq] at ends
    rw [ends] at whole
    refine ⟨String.ofList rest.toList.dropLast, String.toList_injective ?_⟩
    rw [toList_quoted, String.toList_append, String.toList_singleton, String.toList_ofList]
    exact congrArg ('"' :: ·) whole
  · rintro ⟨value, rfl⟩
    have one : "\"".utf8ByteSize = 1 := rfl
    refine ⟨?_, ?_, ?_⟩
    · rw [quoted, String.utf8ByteSize_append, String.utf8ByteSize_append, one]
      omega
    · rw [String.startsWith_char_eq_head?, toList_quoted, List.cons_append, List.head?_cons,
        beq_iff_eq]
    · rw [String.endsWith_char_eq_getLast?, toList_quoted, List.getLast?_concat, beq_iff_eq]

/-- Every text can be cut at octets, and what is cut out is the text without quotation marks around it. -/
theorem cutQuotes?_eq (stored : String) : cutQuotes? stored = some (unquote stored) := by
  rcases unquote_cases stored with ⟨value, rfl⟩ | ⟨plain, same⟩
  · have one : "\"".utf8ByteSize = 1 := rfl
    have size : (quoted value).utf8ByteSize - 1 = "\"".utf8ByteSize + value.utf8ByteSize := by
      rw [quoted, String.utf8ByteSize_append, String.utf8ByteSize_append, one]
      omega
    have cut := Text.between?_append "\"" value "\""
    rw [cutQuotes?, if_pos ((quoted_iff _).mpr ⟨value, rfl⟩), size, unquote_quoted]
    exact cut
  · rw [cutQuotes?, if_neg (mt (quoted_iff stored).mp plain), same]

/-- A line that sets a value between quotation marks. -/
def line (key value : String) : String := key ++ " = " ++ quoted value

/-- Whether a line may hold a key and a value: neither has a line feed, and the key neither an equals sign
nor a blank at its ends. -/
structure IsPlain (key value : String) : Prop where
  /-- The key has no equals sign. -/
  mark : '=' ∉ key.toList
  /-- The key has no line feed. -/
  feed : '\n' ∉ key.toList
  /-- Neither end of the key is blank. -/
  tight : Text.IsTight key.toList
  /-- The value has no line feed. -/
  value : '\n' ∉ value.toList

instance (key value : String) : Decidable (IsPlain key value) :=
  decidable_of_iff ('=' ∉ key.toList ∧ '\n' ∉ key.toList ∧ Text.IsTight key.toList ∧
      '\n' ∉ value.toList)
    ⟨fun ⟨mark, feed, tight, value⟩ => ⟨mark, feed, tight, value⟩,
      fun plain => ⟨plain.mark, plain.feed, plain.tight, plain.value⟩⟩

/-- A line sets its key to its value between quotation marks. -/
theorem entriesOf_line {key value : String} (plain : IsPlain key value) :
    entriesOf (line key value) = [(key, quoted value)] := by
  have sign : " = ".toList = [' ', '=', ' '] := rfl
  have chars : (line key value).toList =
      (key.toList ++ [' ']) ++ '=' :: (' ' :: (quoted value).toList) := by
    rw [line, String.toList_append, String.toList_append, sign]
    simp only [List.append_assoc, List.cons_append, List.nil_append]
  have whole : '\n' ∉ (line key value).toList := by
    simp only [chars, toList_quoted, List.mem_append, List.mem_cons, List.not_mem_nil, or_false,
      not_or]
    exact ⟨⟨plain.feed, by decide⟩, by decide, by decide, ⟨by decide, plain.value⟩, by decide⟩
  have before : '=' ∉ key.toList ++ [' '] := by
    simp only [List.mem_append, List.mem_singleton, not_or]
    exact ⟨plain.mark, by decide⟩
  have blank : Text.isBlank ' ' = true := by decide
  have solid : Text.isBlank '"' = false := by decide
  have tight : Text.IsTight (quoted value).toList := by
    constructor
    · intro c first
      rw [toList_quoted, List.cons_append, List.head?_cons, Option.mem_some] at first
      rw [← first, solid]
    · intro c last
      rw [toList_quoted, List.getLast?_concat, Option.mem_some] at last
      rw [← last, solid]
  have behind : Text.trim (' ' :: (quoted value).toList) = (quoted value).toList := by
    have starts := Text.trim_of_isTight tight
    rw [Text.trim] at starts ⊢
    rwa [List.dropWhile_cons_of_pos blank]
  rw [entriesOf_eq, Text.pieces_of_notMem whole, List.filterMap_cons, List.filterMap_nil,
    entryOfLine?, chars, Text.splitFirst_append before, Option.map_some]
  simp only [Text.trim_concat blank, Text.trim_of_isTight plain.tight, behind, String.ofList_toList]

/-- The text of a line for each of some pairs. -/
def written (pairs : Keyed String) : String :=
  "\n".intercalate (pairs.map fun (key, value) => line key value)

/-- The lines of pairs stand for the pairs, with quotation marks around the values. -/
theorem entriesOf_written {pairs : Keyed String}
    (plain : ∀ pair ∈ pairs, IsPlain pair.1 pair.2) :
    entriesOf (written pairs) = pairs.map fun (key, value) => (key, quoted value) := by
  induction pairs with
  | nil => rfl
  | cons pair rest ih =>
    obtain ⟨key, value⟩ := pair
    have first := entriesOf_line (plain _ List.mem_cons_self)
    have others := ih fun pair inside => plain pair (List.mem_cons_of_mem _ inside)
    cases rest with
    | nil =>
      rw [written, List.map_singleton, String.intercalate_singleton, first]
      rfl
    | cons next rest =>
      have joined : written ((key, value) :: next :: rest) =
        line key value ++ "\n" ++ written (next :: rest) := String.intercalate_cons_cons
      rw [joined, entriesOf_append, first, others]
      rfl

/-- Lines with values between quotation marks, with a line feed behind the last one or without it, set the
last value of each key as it is and leave every other key as it was. Texts with a line feed between them
are read one after the other. Whatever is stored can be cut at the octets of its quotation marks, and this is
what is looked up. -/
theorem reads_written (params : Parameters) (pairs : Keyed String)
    (plain : ∀ pair ∈ pairs, IsPlain pair.1 pair.2) :
    (∀ ending ∈ ["", "\n"], ∀ key,
      (∀ value, Keyed.last? key pairs = some value →
        (params.parse (written pairs ++ ending)).get? key = some value) ∧
      (Keyed.last? key pairs = none →
        (params.parse (written pairs ++ ending)).raw? key = params.raw? key)) ∧
    (∀ first second,
      params.parse (first ++ "\n" ++ second) = (params.parse first).parse second) ∧
    ∀ key stored, params.raw? key = some stored →
      ∃ text, cutQuotes? stored = some text ∧ params.get? key = some text := by
  refine ⟨fun ending among key => ?_, params.parse_append, fun key stored found => ?_⟩
  · have entries : entriesOf (written pairs ++ ending) =
        pairs.map fun (key, value) => (key, quoted value) := by
      rw [List.mem_cons, List.mem_singleton] at among
      rcases among with rfl | rfl
      · rw [String.append_empty, entriesOf_written plain]
      · rw [entriesOf_feed, entriesOf_written plain]
    have raw : (params.parse (written pairs ++ ending)).raw? key =
        ((Keyed.last? key pairs).map quoted).or (params.raw? key) := by
      rw [parse_eq, entries, raw?_insertAll, Keyed.last?, ← List.map_reverse, Keyed.get?_map]
      rfl
    refine ⟨fun value last => ?_, fun none => ?_⟩
    · rw [get?, raw, last, Option.map_some, Option.some_or, Option.map_some, unquote_quoted]
    · rw [raw, none, Option.map_none, Option.none_or]
  · exact ⟨unquote stored, cutQuotes?_eq stored, by rw [get?, found, Option.map_some]⟩

/-- The last of two values counts, with its blanks, marks and carriage returns, and so does an empty one;
a key without a line keeps its text. -/
theorem reads_written_marks :
    (∀ pair ∈ [("note", "x"), ("empty", ""), ("note", " a=\"b\"\x0d")],
      IsPlain pair.1 pair.2) ∧
    ((⟨"ping", [("model", "\"3\""), ("note", "old")]⟩ : Parameters).parse
      (written [("note", "x"), ("empty", ""), ("note", " a=\"b\"\x0d")] ++ "\n")).get? "note" =
        some " a=\"b\"\x0d" ∧
    ((⟨"ping", [("model", "\"3\""), ("note", "old")]⟩ : Parameters).parse
      (written [("note", "x"), ("empty", ""), ("note", " a=\"b\"\x0d")] ++ "\n")).get? "empty" =
        some "" ∧
    ((⟨"ping", [("model", "\"3\""), ("note", "old")]⟩ : Parameters).parse
      (written [("note", "x"), ("empty", ""), ("note", " a=\"b\"\x0d")] ++ "\n")).raw? "model" =
        some "\"3\"" ∧
    cutQuotes? "\"3\"" = some "3" := by
  have plain : ∀ pair ∈ [("note", "x"), ("empty", ""), ("note", " a=\"b\"\x0d")],
      IsPlain pair.1 pair.2 := by decide
  obtain ⟨reads, -, cuts⟩ :=
    reads_written ⟨"ping", [("model", "\"3\""), ("note", "old")]⟩ _ plain
  refine ⟨plain, (reads "\n" (by decide) "note").1 _ (by decide),
    (reads "\n" (by decide) "empty").1 _ (by decide),
    (reads "\n" (by decide) "model").2 (by decide), ?_⟩
  obtain ⟨text, cut, found⟩ := cuts "model" "\"3\"" (by decide)
  rw [cut, ← found]
  decide

end Parameters

end Rally
