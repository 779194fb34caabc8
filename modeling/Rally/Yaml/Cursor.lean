/-!
# Positions in YAML text

A cursor holds the characters still to be read and the place reached: the number of characters
before it, its line and its column. The character classes are those of block structured YAML, in
which five characters, and a carriage return with its line feed, end a line.
-/

namespace Rally.Yaml

/-- A place in a text, each part counted from zero. -/
structure Mark where
  /-- Characters before the place. -/
  index : Nat
  /-- Line ends before the place. -/
  line : Nat
  /-- Characters between the start of the line and the place. -/
  column : Nat
  deriving DecidableEq, Inhabited

/-- The start of a text. -/
def Mark.start : Mark := ⟨0, 0, 0⟩

/-- The words for a place other than the start of the text, each part counted from one. -/
def Mark.suffix (m : Mark) : String :=
  if m.line = 0 ∧ m.column = 0 then ""
  else s!" at line {m.line + 1} column {m.column + 1}"

/-- A fault in the structure of a text, where it was noticed. -/
structure Fault where
  /-- What is wrong. -/
  problem : String
  /-- Where the reader stood. -/
  mark : Mark

/-- Line ends: line feed, carriage return, next line, and the two separators. -/
def isBreak (c : Char) : Bool :=
  c == '\n' || c == '\x0d' || c == '\u0085' || c == '\u2028' || c == '\u2029'

/-- Space and tabulator. -/
def isGap (c : Char) : Bool := c == ' ' || c == '\t'

/-- Blanks, line ends and the end of the text end a word. -/
def endsWord : Option Char → Bool
  | none => true
  | some c => isGap c || isBreak c

/-- Line ends and the end of the text end a line. -/
def endsLine : Option Char → Bool
  | none => true
  | some c => isBreak c

/-- Letters, digits, underscore and hyphen of ASCII. -/
def isWordChar (c : Char) : Bool := c.isAlphanum || c == '_' || c == '-'

/-- The characters a text may consist of. -/
def isAllowed (c : Char) : Bool :=
  let n := c.toNat
  n == 0x09 || n == 0x0A || n == 0x0D || (0x20 ≤ n && n ≤ 0x7E) || n == 0x85 ||
    (0xA0 ≤ n && n ≤ 0xFFFD) || 0x10000 ≤ n

/-- What is left to read, and where. -/
structure Cursor where
  /-- The characters ahead. -/
  rest : List Char
  /-- The place of the first of them. -/
  mark : Mark

namespace Cursor

/-- The next character. -/
def peek (c : Cursor) : Option Char := c.rest.head?

/-- The character after some others. -/
def peekAt (c : Cursor) (n : Nat) : Option Char := c.rest[n]?

/-- Whether the next character is a given one. -/
def looksAt (c : Cursor) (expected : Char) : Bool := c.peek == some expected

/-- Passes one character of a line. -/
def skip (c : Cursor) : Cursor :=
  match c.rest with
  | [] => c
  | _ :: rest => ⟨rest, { c.mark with index := c.mark.index + 1, column := c.mark.column + 1 }⟩

/-- Passes some characters of a line. -/
def skipMany (c : Cursor) (n : Nat) : Cursor :=
  ⟨c.rest.drop n, { c.mark with index := c.mark.index + n, column := c.mark.column + n }⟩

/-- Passes one line end and gives what it stands for: a line feed, or one of the separators. -/
def takeBreak (c : Cursor) : List Char × Cursor :=
  match c.rest with
  | '\x0d' :: '\n' :: rest => (['\n'], ⟨rest, ⟨c.mark.index + 2, c.mark.line + 1, 0⟩⟩)
  | b :: rest =>
    if isBreak b then
      let text := if b == '\u2028' || b == '\u2029' then b else '\n'
      ([text], ⟨rest, ⟨c.mark.index + 1, c.mark.line + 1, 0⟩⟩)
    else ([], c)
  | [] => ([], c)

/-- Passes one line end, if there is one. -/
def skipBreak (c : Cursor) : Cursor := c.takeBreak.2

/-- At the end of a text its last line counts as ended. -/
def endLine (c : Cursor) : Cursor :=
  if c.mark.column = 0 then c else { c with mark := ⟨c.mark.index, c.mark.line + 1, 0⟩ }

/-- Takes the longest run of characters of a kind. -/
def takeWhile (c : Cursor) (kind : Char → Bool) : List Char × Cursor :=
  let run := c.rest.takeWhile kind
  (run, c.skipMany run.length)

/-- Passes the longest run of characters of a kind. -/
def skipWhile (c : Cursor) (kind : Char → Bool) : Cursor := (c.takeWhile kind).2

/-- Passes the rest of the line, up to its end. -/
def skipLine (c : Cursor) : Cursor := c.skipWhile fun ch => !isBreak ch

/-- Passes blanks, a comment and one line end, refusing anything else on the line. -/
def skipLineEnd (c : Cursor) : Except Fault Cursor :=
  let c := c.skipWhile isGap
  let c := if c.looksAt '#' then c.skipLine else c
  if endsLine c.peek then .ok c.skipBreak
  else .error ⟨"expected a comment or a line end", c.mark⟩

/-- Whether a line begins with three marks that end a word: `---` or `...`. -/
def atDocumentMark (c : Cursor) (mark : Char) : Bool :=
  c.mark.column == 0 && c.rest.take 3 == [mark, mark, mark] && endsWord (c.peekAt 3)

/-- Whether a line begins with either of the marks between documents. -/
def atDocumentBoundary (c : Cursor) : Bool := c.atDocumentMark '-' || c.atDocumentMark '.'

end Cursor

end Rally.Yaml
