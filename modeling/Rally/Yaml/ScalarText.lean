import Rally.Yaml.Token
/-!
# The text of YAML scalars

The text of a scalar differs from its characters in the file: line ends fold into spaces, escapes
stand for characters, indentation is dropped, and a block says what becomes of its last line ends.
-/

namespace Rally.Yaml

/-- Blanks and line ends that may still turn out to lie inside of a scalar. -/
structure Gap where
  /-- Blanks on the scalar's line. -/
  blanks : List Char := []
  /-- The first line end, once there is one. -/
  first : Option (List Char) := none
  /-- The line ends after it. -/
  others : List Char := []

/-- What a gap stands for inside of a scalar: blanks for themselves, one line feed for a space, and
of several line ends all but a first line feed. -/
def Gap.text (gap : Gap) : List Char :=
  match gap.first with
  | none => gap.blanks
  | some first =>
    if first = ['\n'] then (if gap.others.isEmpty then [' '] else gap.others)
    else first ++ gap.others

/-- Reads blanks and line ends. Blanks behind a line end are indentation, in which a plain scalar
admits no tabulator left of its column. Fuel is the number of characters ahead. -/
def readGap (leftOf : Option Int) : Nat → Gap → Cursor → Except Fault (Gap × Cursor)
  | 0, gap, c => .ok (gap, c)
  | fuel + 1, gap, c =>
    match c.peek with
    | none => .ok (gap, c)
    | some ch =>
      if isGap ch then
        if gap.first.isSome then
          if ch == '\t' && leftOf.any (fun column => (c.mark.column : Int) < column) then
            .error ⟨"a tabulator stands in the indentation", c.mark⟩
          else readGap leftOf fuel gap c.skip
        else readGap leftOf fuel { gap with blanks := gap.blanks ++ [ch] } c.skip
      else if isBreak ch then
        let (text, c) := c.takeBreak
        match gap.first with
        | none => readGap leftOf fuel { blanks := [], first := some text, others := [] } c
        | some _ => readGap leftOf fuel { gap with others := gap.others ++ text } c
      else .ok (gap, c)

/-- The characters that delimit the members of flow collections. -/
def isFlowIndicator (c : Char) : Bool :=
  c == ',' || c == '[' || c == ']' || c == '{' || c == '}'

/-- Reads a run of a plain scalar without blanks: up to a colon that ends a word and, in a flow
collection, up to its indicators. -/
def readPlainRun (inFlow : Bool) : List Char → Mark → Except Fault (List Char)
  | [], _ => .ok []
  | c :: rest, mark =>
    if endsWord (some c) then .ok []
    else if inFlow && c == ':' && rest.head?.any (fun n => isFlowIndicator n || n == '?') then
      .error ⟨"unexpected colon in a plain scalar", mark⟩
    else if c == ':' && endsWord rest.head? then .ok []
    else if inFlow && isFlowIndicator c then .ok []
    else (readPlainRun inFlow rest mark).map (c :: ·)

/-- A plain scalar read so far. -/
structure PlainScalar where
  /-- The text, its pieces in reverse order. -/
  pieces : List (List Char) := []
  /-- The place behind its last character. -/
  stop : Mark
  /-- Whether a line end was passed behind it. -/
  passedLine : Bool := false
  /-- The place reached. -/
  cursor : Cursor

/-- Reads runs and the gaps between them while they stay right of the surrounding block. -/
def readPlainRuns (inFlow : Bool) (column : Int) :
    Nat → List (List Char) → Mark → Gap → Cursor → Except Fault PlainScalar
  | 0, pieces, stop, gap, c => .ok { pieces, stop, passedLine := gap.first.isSome, cursor := c }
  | fuel + 1, pieces, stop, gap, c => do
    let done : PlainScalar := { pieces, stop, passedLine := gap.first.isSome, cursor := c }
    if c.atDocumentBoundary || c.looksAt '#' then return done
    let run ← readPlainRun inFlow c.rest c.mark
    let after := c.skipMany run.length
    let pieces := if run.isEmpty then pieces else run :: gap.text :: pieces
    let stop := if run.isEmpty then stop else after.mark
    let gap := if run.isEmpty then gap else {}
    if after.peek.isNone || !endsWord after.peek then
      return { pieces, stop, passedLine := gap.first.isSome, cursor := after }
    let (gap, next) ← readGap (some column) (after.rest.length + 1) gap after
    if !inFlow && (next.mark.column : Int) < column then
      return { pieces, stop, passedLine := gap.first.isSome, cursor := next }
    readPlainRuns inFlow column fuel pieces stop gap next

/-- Reads a plain scalar. -/
def readPlain (inFlow : Bool) (indent : Int) (c : Cursor) : Except Fault PlainScalar :=
  readPlainRuns inFlow (indent + 1) (c.rest.length + 1) [] c.mark {} c

/-- The text of pieces in reverse order. -/
def joinPieces (pieces : List (List Char)) : String := String.ofList pieces.reverse.flatten

/-- The characters that a letter behind a backslash stands for. -/
def simpleEscape? (c : Char) : Option Char :=
  match c with
  | '0' => some '\x00'
  | 'a' => some '\x07'
  | 'b' => some '\x08'
  | 't' => some '\t'
  | '\t' => some '\t'
  | 'n' => some '\n'
  | 'v' => some '\x0b'
  | 'f' => some '\x0c'
  | 'r' => some '\x0d'
  | 'e' => some '\x1b'
  | ' ' => some ' '
  | '"' => some '"'
  | '/' => some '/'
  | '\\' => some '\\'
  | 'N' => some '\u0085'
  | '_' => some '\u00a0'
  | 'L' => some '\u2028'
  | 'P' => some '\u2029'
  | _ => none

/-- The number of hexadecimal digits behind a letter. -/
def hexEscape? (c : Char) : Option Nat :=
  if c == 'x' then some 2 else if c == 'u' then some 4 else if c == 'U' then some 8 else none

/-- The value of a hexadecimal digit. -/
def hexDigit? (c : Char) : Option Nat :=
  if '0' ≤ c ∧ c ≤ '9' then some (c.toNat - 48)
  else if 'a' ≤ c ∧ c ≤ 'f' then some (c.toNat - 87)
  else if 'A' ≤ c ∧ c ≤ 'F' then some (c.toNat - 55)
  else none

/-- The value of a run of hexadecimal digits. -/
def hexValue? : Nat → List Char → Option Nat
  | value, [] => some value
  | value, c :: rest => (hexDigit? c).bind fun d => hexValue? (value * 16 + d) rest

/-- Reads one escape, standing on its backslash. -/
def readEscape (c : Cursor) : Except Fault (Char × Cursor) :=
  let fault : Fault := ⟨"invalid escape in a quoted scalar", c.mark⟩
  match c.peekAt 1 with
  | none => .error fault
  | some letter =>
    match simpleEscape? letter, hexEscape? letter with
    | some ch, _ => .ok (ch, c.skipMany 2)
    | none, some width =>
      let digits := (c.rest.drop 2).take width
      match hexValue? 0 digits with
      | some value =>
        if digits.length < width || (0xD800 ≤ value && value ≤ 0xDFFF) || 0x10FFFF < value then
          .error fault
        else .ok (Char.ofNat value, c.skipMany (2 + width))
      | none => .error fault
    | none, none => .error fault

/-- A quoted scalar read so far: its pieces in reverse order, and the gap behind an escaped line
end, if the last piece stops there. -/
structure QuotedRun where
  /-- The pieces in reverse order. -/
  pieces : List (List Char)
  /-- Whether a backslash removed the line end that follows. -/
  escapedBreak : Bool
  /-- The place reached. -/
  cursor : Cursor

/-- Reads characters and escapes up to a blank, a line end or the closing quotation mark. -/
def readQuotedRun (single : Bool) : Nat → List (List Char) → Cursor → Except Fault QuotedRun
  | 0, pieces, c => .ok ⟨pieces, false, c⟩
  | fuel + 1, pieces, c =>
    match c.peek with
    | none => .ok ⟨pieces, false, c⟩
    | some ch =>
      if endsWord (some ch) then .ok ⟨pieces, false, c⟩
      else if single then
        if ch == '\'' then
          if c.peekAt 1 == some '\'' then
            readQuotedRun single fuel (['\''] :: pieces) (c.skipMany 2)
          else .ok ⟨pieces, false, c⟩
        else readQuotedRun single fuel ([ch] :: pieces) c.skip
      else if ch == '"' then .ok ⟨pieces, false, c⟩
      else if ch == '\\' then
        if (c.peekAt 1).any isBreak then .ok ⟨pieces, true, c.skip.skipBreak⟩
        else do
          let (escaped, c) ← readEscape c
          readQuotedRun single fuel ([escaped] :: pieces) c
      else readQuotedRun single fuel ([ch] :: pieces) c.skip

/-- Reads the runs and gaps of a quoted scalar up to its closing quotation mark. -/
def readQuotedRuns (single : Bool) :
    Nat → List (List Char) → Cursor → Except Fault (List (List Char) × Cursor)
  | 0, _, c => .error ⟨"a quoted scalar has no end", c.mark⟩
  | fuel + 1, pieces, c => do
    if c.atDocumentBoundary then
      throw ⟨"a document ends inside of a quoted scalar", c.mark⟩
    if c.peek.isNone then
      throw ⟨"a quoted scalar has no end", c.mark⟩
    let run ← readQuotedRun single (c.rest.length + 1) pieces c
    if run.cursor.looksAt (if single then '\'' else '"') then
      return (run.pieces, run.cursor.skip)
    let opening : Gap := if run.escapedBreak then { first := some [] } else {}
    let (gap, next) ← readGap none (run.cursor.rest.length + 1) opening run.cursor
    readQuotedRuns single fuel (gap.text :: run.pieces) next

/-- Reads a quoted scalar, standing on its opening quotation mark. -/
def readQuoted (single : Bool) (c : Cursor) : Except Fault (String × Cursor) := do
  let (pieces, c) ← readQuotedRuns single (c.rest.length + 1) [] c.skip
  return (joinPieces pieces, c)

/-- What becomes of the line ends behind a block scalar. -/
inductive Chomping where
  /-- All of them are dropped. -/
  | strip
  /-- One is kept. -/
  | clip
  /-- All of them are kept. -/
  | keep
  deriving DecidableEq

/-- The signs for dropping and keeping. -/
def Chomping.ofChar? (c : Char) : Option Chomping :=
  if c == '-' then some .strip else if c == '+' then some .keep else none

/-- Reads the header of a block scalar: a chomping sign and an indentation digit in either order. -/
def readBlockHeader (c : Cursor) : Except Fault (Chomping × Option Nat × Cursor) := do
  let digit (c : Cursor) : Except Fault (Option Nat × Cursor) :=
    match c.peek with
    | some ch =>
      if ch == '0' then .error ⟨"an indentation of zero", c.mark⟩
      else if ch.isDigit then .ok (some (ch.toNat - '0'.toNat), c.skip)
      else .ok (none, c)
    | none => .ok (none, c)
  let sign (c : Cursor) : Option Chomping × Cursor :=
    match c.peek.bind Chomping.ofChar? with
    | some chomping => (some chomping, c.skip)
    | none => (none, c)
  match sign c with
  | (some chomping, c) =>
    let (increment, c) ← digit c
    return (chomping, increment, c)
  | (none, c) =>
    let (increment, c) ← digit c
    if increment.isSome then
      let (chomping, c) := sign c
      return (chomping.getD .clip, increment, c)
    else return (.clip, none, c)

/-- Empty lines in front of a line of a block scalar. -/
structure BlockGap where
  /-- The line ends. -/
  breaks : List Char
  /-- The largest column that blanks reached. -/
  widest : Nat
  /-- The place behind the last line end. -/
  stop : Mark
  /-- The place reached. -/
  cursor : Cursor

/-- Reads indentation and empty lines. While the indentation is not known, all spaces belong to
it, and a tabulator may not follow them. -/
def readBlockGap (indent : Option Nat) :
    Nat → List Char → Nat → Mark → Cursor → Except Fault BlockGap
  | 0, breaks, widest, stop, c => .ok ⟨breaks, widest, stop, c⟩
  | fuel + 1, breaks, widest, stop, c =>
    let spaces := (c.rest.takeWhile (· == ' ')).length
    let c := c.skipMany (match indent with
      | none => spaces
      | some n => min spaces (n - c.mark.column))
    let widest := max widest c.mark.column
    if c.looksAt '\t' && indent.all (fun n => decide (c.mark.column < n)) then
      .error ⟨"a tabulator stands in the indentation", c.mark⟩
    else match c.peek with
      | some ch =>
        if isBreak ch then
          let (text, c) := c.takeBreak
          readBlockGap indent fuel (breaks ++ text) widest c.mark c
        else .ok ⟨breaks, widest, stop, c⟩
      | none => .ok ⟨breaks, widest, stop, c⟩

/-- The lines of a block scalar read so far. -/
structure BlockLines where
  /-- The text, its pieces in reverse order. -/
  pieces : List (List Char)
  /-- The end of the last line. -/
  lineEnd : List Char
  /-- The empty lines behind it. -/
  breaks : List Char
  /-- The place behind the scalar. -/
  stop : Mark
  /-- The place reached. -/
  cursor : Cursor

/-- Reads the lines of a block scalar at its indentation. In a folded one a line end becomes a
space, or nothing in front of empty lines, unless a line next to it begins with a blank. -/
def readBlockLines (folded : Bool) (indent : Nat) :
    Nat → Bool → BlockLines → Except Fault BlockLines
  | 0, _, lines => .ok lines
  | fuel + 1, indented, lines =>
    let c := lines.cursor
    match c.peek with
    | none => .ok lines
    | some ch =>
      if c.mark.column ≠ indent then .ok lines
      else do
        let blank := isGap ch
        let joint :=
          if folded && lines.lineEnd == ['\n'] && !indented && !blank then
            if lines.breaks.isEmpty then [' '] else []
          else lines.lineEnd
        let (text, c) := c.takeWhile fun ch => !isBreak ch
        let (lineEnd, c) := c.takeBreak
        let gap ← readBlockGap (some indent) (c.rest.length + 1) [] 0 c.mark c
        readBlockLines folded indent fuel blank
          ⟨text :: lines.breaks :: joint :: lines.pieces, lineEnd, gap.breaks, gap.stop, gap.cursor⟩

/-- Reads a block scalar, standing on its indicator. Without an indentation digit the first line
that holds anything gives the indentation, which lies right of the surrounding block. -/
def readBlock (folded : Bool) (parent : Int) (c : Cursor) :
    Except Fault (String × Mark × Cursor) := do
  let (chomping, increment, c) ← readBlockHeader c.skip
  let c ← c.skipLineEnd
  let fuel := c.rest.length + 1
  let base := parent.toNat
  let (indent, gap) ← match increment with
    | some n => do
      let indent := base + n
      pure (indent, ← readBlockGap (some indent) fuel [] 0 c.mark c)
    | none => do
      let gap ← readBlockGap none fuel [] 0 c.mark c
      pure (max (max gap.widest (parent + 1).toNat) 1, gap)
  let lines ← readBlockLines folded indent fuel false ⟨[], [], gap.breaks, gap.stop, gap.cursor⟩
  let ending := match chomping with
    | .strip => []
    | .clip => lines.lineEnd
    | .keep => lines.lineEnd ++ lines.breaks
  return (joinPieces (ending :: lines.pieces), lines.stop, lines.cursor)

end Rally.Yaml
