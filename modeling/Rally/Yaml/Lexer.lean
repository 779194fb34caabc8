import Rally.Yaml.ScalarText
/-!
# From YAML text to tokens

The lexer remembers the columns of the open blocks, and for every open flow collection, as for the
text around them, the place of a token that turns out to be a key when a colon follows it on its
line. Then the key indicator, and the start of its mapping, are put in front of that token.
-/

namespace Rally.Yaml

/-- A token that may turn out to be a key. -/
structure KeyCandidate where
  /-- Its position among the tokens. -/
  position : Nat
  /-- Where it begins. -/
  mark : Mark
  /-- Whether it stands at the column of its block, where nothing but a key may stand. -/
  required : Bool

/-- The state of the lexer. -/
structure Lexer where
  /-- The text ahead. -/
  cursor : Cursor
  /-- The tokens found. -/
  tokens : Array Token := #[]
  /-- The column of the innermost block, `-1` outside of all blocks. -/
  indent : Int := -1
  /-- The columns of the blocks around it, from the inside. -/
  outer : List Int := []
  /-- Whether a key may begin here. -/
  keyAllowed : Bool := true
  /-- The candidate outside of the innermost flow collections. -/
  candidate : Option KeyCandidate := none
  /-- The candidates around it, one for each open flow collection, from the inside. -/
  outerCandidates : List (Option KeyCandidate) := []

namespace Lexer

/-- Whether a flow collection is open. -/
def inFlow (lx : Lexer) : Bool := !lx.outerCandidates.isEmpty

/-- A fault at the place reached. -/
def fault {α : Type} (lx : Lexer) (problem : String) : Except Fault α :=
  .error ⟨problem, lx.cursor.mark⟩

/-- Adds a token that begins at a mark and ends at the cursor. -/
def push (lx : Lexer) (kind : TokenKind) (start : Mark) (cursor : Cursor) : Lexer :=
  { lx with tokens := lx.tokens.push ⟨kind, start, cursor.mark⟩, cursor := cursor }

/-- Adds an indicator of some characters. -/
def pushIndicator (lx : Lexer) (kind : TokenKind) (width : Nat) : Lexer :=
  lx.push kind lx.cursor.mark (lx.cursor.skipMany width)

/-- Puts a token without extent in front of a position. -/
def insert (lx : Lexer) (position : Nat) (kind : TokenKind) (mark : Mark) : Lexer :=
  { lx with tokens := lx.tokens.insertIdxIfInBounds position ⟨kind, mark, mark⟩ }

/-- Opens a block at a column right of the innermost one, in front of a position. -/
def openBlock (lx : Lexer) (column position : Nat) (kind : TokenKind) (mark : Mark) : Lexer :=
  if lx.inFlow || (column : Int) ≤ lx.indent then lx
  else
    { lx.insert position kind mark with indent := (column : Int), outer := lx.indent :: lx.outer }

/-- Opens a block in front of the next token. -/
def openBlockHere (lx : Lexer) (kind : TokenKind) : Lexer :=
  lx.openBlock lx.cursor.mark.column lx.tokens.size kind lx.cursor.mark

/-- Closes blocks while the innermost one lies right of a column. -/
def closeBlocksFrom (column : Int) (mark : Mark) :
    Int → List Int → Array Token → Int × List Int × Array Token
  | indent, [], tokens => (indent, [], tokens)
  | indent, next :: outer, tokens =>
    if column < indent then
      closeBlocksFrom column mark next outer (tokens.push ⟨.blockEnd, mark, mark⟩)
    else (indent, next :: outer, tokens)

/-- Closes the blocks right of a column. -/
def closeBlocks (lx : Lexer) (column : Int) : Lexer :=
  if lx.inFlow then lx
  else
    let (indent, outer, tokens) :=
      closeBlocksFrom column lx.cursor.mark lx.indent lx.outer lx.tokens
    { lx with indent, outer, tokens }

/-- Gives up the candidate; a required one must have become a key. -/
def dropCandidate (lx : Lexer) : Except Fault Lexer :=
  if lx.candidate.any KeyCandidate.required then lx.fault "expected a colon behind a key"
  else .ok { lx with candidate := none }

/-- Whether a candidate is too far back: on an earlier line or more than 1024 characters away. -/
def isStale (lx : Lexer) (key : KeyCandidate) : Bool :=
  key.mark.line < lx.cursor.mark.line || key.mark.index + 1024 < lx.cursor.mark.index

/-- Gives up all candidates that are too far back. -/
def dropStale (lx : Lexer) : Except Fault Lexer :=
  let gone (key : Option KeyCandidate) : Bool := key.any lx.isStale
  let broken (key : Option KeyCandidate) : Bool := key.any fun k => lx.isStale k && k.required
  if broken lx.candidate || lx.outerCandidates.any broken then
    lx.fault "expected a colon behind a key"
  else
    let keep (key : Option KeyCandidate) := if gone key then none else key
    .ok { lx with
      candidate := keep lx.candidate, outerCandidates := lx.outerCandidates.map keep }

/-- Notes that the next token may turn out to be a key. -/
def saveCandidate (lx : Lexer) : Except Fault Lexer :=
  if lx.keyAllowed then do
    let required := !lx.inFlow && lx.indent == (lx.cursor.mark.column : Int)
    let lx ← lx.dropCandidate
    return { lx with candidate := some ⟨lx.tokens.size, lx.cursor.mark, required⟩ }
  else .ok lx

/-- Passes blanks, comments and line ends. Tabulators separate tokens only where no key may begin;
outside of flow collections every line may begin with a key. Fuel is the number of characters. -/
def toNextToken : Nat → Lexer → Lexer
  | 0, lx => lx
  | fuel + 1, lx =>
    let c := lx.cursor
    let c := if c.mark.column == 0 && c.looksAt '\ufeff' then c.skip else c
    let tabs := lx.inFlow || !lx.keyAllowed
    let c := c.skipWhile fun ch => ch == ' ' || (tabs && ch == '\t')
    let c := if c.looksAt '#' then c.skipLine else c
    if c.peek.any isBreak then
      toNextToken fuel { lx with cursor := c.skipBreak, keyAllowed := lx.keyAllowed || !lx.inFlow }
    else { lx with cursor := c }

/-- Reads a decimal number of at most nine digits. -/
def versionNumber (c : Cursor) : Except Fault (Nat × Cursor) :=
  let (digits, next) := c.takeWhile Char.isDigit
  if digits.isEmpty || 9 < digits.length then .error ⟨"expected a version number", c.mark⟩
  else .ok (digits.foldl (fun n d => n * 10 + (d.toNat - 48)) 0, next)

/-- Reads the mark of a tag handle: an exclamation mark, or a word between two of them. -/
def readHandle (directive : Bool) (c : Cursor) : Except Fault (String × Cursor) :=
  if !c.looksAt '!' then .error ⟨"expected a tag", c.mark⟩
  else
    let (word, next) := c.skip.takeWhile isWordChar
    if next.looksAt '!' then .ok (String.ofList ('!' :: word ++ ['!']), next.skip)
    else if directive && !word.isEmpty then .error ⟨"expected an exclamation mark", next.mark⟩
    else .ok (String.ofList ('!' :: word), next)

/-- The characters of a tag that stand for themselves. -/
def isTagChar (verbatim : Bool) (c : Char) : Bool :=
  isWordChar c || [';', '/', '?', ':', '@', '&', '=', '+', '$', '.', '!', '~', '*', '\'', '(',
    ')'].contains c || (verbatim && (c == ',' || c == '[' || c == ']'))

/-- Reads octets written as a percent sign and two hexadecimal digits. -/
def readOctets : Nat → Cursor → Except Fault (List Nat × Cursor)
  | 0, c => .ok ([], c)
  | count + 1, c =>
    match c.peek, (c.peekAt 1).bind hexDigit?, (c.peekAt 2).bind hexDigit? with
    | some '%', some high, some low => do
      let (others, c) ← readOctets count (c.skipMany 3)
      return ((high * 16 + low) :: others, c)
    | _, _, _ => .error ⟨"expected an escaped octet", c.mark⟩

/-- The number of octets of a character that begins with a given one. -/
def octetCount? (first : Nat) : Option Nat :=
  if first < 0x80 then some 1
  else if first < 0xC0 then none
  else if first < 0xE0 then some 2
  else if first < 0xF0 then some 3
  else if first < 0xF8 then some 4
  else none

/-- The character that octets encode. -/
def decodeOctets (octets : List Nat) : Char :=
  match octets with
  | [a] => Char.ofNat a
  | [a, b] => Char.ofNat ((a % 0x20) * 64 + b % 0x40)
  | [a, b, c] => Char.ofNat ((a % 0x10) * 4096 + (b % 0x40) * 64 + c % 0x40)
  | [a, b, c, d] =>
    Char.ofNat ((a % 0x08) * 262144 + (b % 0x40) * 4096 + (c % 0x40) * 64 + d % 0x40)
  | _ => '\x00'

/-- Reads a character of a tag written as octets. -/
def readEscaped (c : Cursor) : Except Fault (Char × Cursor) := do
  let (first, _) ← readOctets 1 c
  match first.head?.bind octetCount? with
  | none => throw ⟨"the first octet of a character is incorrect", c.mark⟩
  | some count =>
    let (octets, next) ← readOctets count c
    if octets.tail.any (fun o => o < 0x80 || 0xC0 ≤ o) then
      throw ⟨"a later octet of a character is incorrect", c.mark⟩
    return (decodeOctets octets, next)

/-- Reads the characters of a tag. Fuel is the number of characters ahead. -/
def readTagChars (verbatim : Bool) : Nat → Cursor → Except Fault (List Char × Cursor)
  | 0, c => .ok ([], c)
  | fuel + 1, c =>
    match c.peek with
    | none => .ok ([], c)
    | some ch =>
      if ch == '%' then do
        let (first, c) ← readEscaped c
        let (others, c) ← readTagChars verbatim fuel c
        return (first :: others, c)
      else if isTagChar verbatim ch then do
        let (others, c) ← readTagChars verbatim fuel c.skip
        return (ch :: others, c)
      else .ok ([], c)

/-- Reads a tag behind what is known of its start; together they may not be empty. -/
def readTagText (verbatim : Bool) (known : String) (c : Cursor) :
    Except Fault (String × Cursor) := do
  let (text, next) ← readTagChars verbatim (c.rest.length + 1) c
  if known.isEmpty && text.isEmpty then throw ⟨"expected a tag", c.mark⟩
  return (String.ofList text, next)

/-- A directive: the version of YAML, or a short handle for tags. -/
def directive (lx : Lexer) : Except Fault Lexer := do
  let start := lx.cursor.mark
  let (name, c) := lx.cursor.skip.takeWhile isWordChar
  if name.isEmpty || !endsWord c.peek then
    throw ⟨"expected the name of a directive", c.mark⟩
  if name == "YAML".toList then
    let (major, c) ← versionNumber (c.skipWhile isGap)
    if !c.looksAt '.' then throw ⟨"expected a point", c.mark⟩
    let (minor, c) ← versionNumber c.skip
    let lx := lx.push (.version major minor) start c
    return { lx with cursor := ← c.skipLineEnd }
  else if name == "TAG".toList then
    let (handle, c) ← readHandle true (c.skipWhile isGap)
    if !c.peek.any isGap then throw ⟨"expected a blank", c.mark⟩
    let (text, c) ← readTagText true "" (c.skipWhile isGap)
    if !endsWord c.peek then throw ⟨"expected a blank or a line end", c.mark⟩
    let lx := lx.push (.tagHandle handle text) start c
    return { lx with cursor := ← c.skipLineEnd }
  else throw ⟨"unknown directive", start⟩

/-- An anchor or alias: its sign and a name, ended by a blank or an indicator. -/
def named (lx : Lexer) (kind : String → TokenKind) : Except Fault Lexer := do
  let lx ← lx.saveCandidate
  let start := lx.cursor.mark
  let (name, c) := lx.cursor.skip.takeWhile isWordChar
  let ended := endsWord c.peek || ['?', ':', ',', ']', '}', '%', '@', '\x60'].any c.looksAt
  if name.isEmpty || !ended then throw ⟨"expected the name of an anchor", c.mark⟩
  return { lx.push (kind (String.ofList name)) start c with keyAllowed := false }

/-- A tag: verbatim between angle brackets, or behind a handle. An exclamation mark alone is a
tag without a handle. -/
def tag (lx : Lexer) : Except Fault Lexer := do
  let lx ← lx.saveCandidate
  let start := lx.cursor.mark
  let (handle, text, c) ←
    if lx.cursor.peekAt 1 == some '<' then do
      let (text, c) ← readTagText true "" (lx.cursor.skipMany 2)
      if !c.looksAt '>' then throw ⟨"expected a closing angle bracket", c.mark⟩
      pure ("", text, c.skip)
    else do
      let (handle, c) ← readHandle false lx.cursor
      if handle.length ≥ 2 && handle.endsWith "!" then
        let (text, c) ← readTagText false "" c
        pure (handle, text, c)
      else
        let (text, c) ← readTagText false handle c
        let text := String.ofList (handle.toList.drop 1) ++ text
        pure (if text.isEmpty then ("", "!", c) else ("!", text, c))
  if !endsWord c.peek && !(lx.inFlow && c.looksAt ',') then
    throw ⟨"expected a blank or a line end", c.mark⟩
  return { lx.push (.tag handle text) start c with keyAllowed := false }

/-- A colon: it makes the candidate a key, or stands behind an empty key. -/
def valueIndicator (lx : Lexer) : Except Fault Lexer :=
  match lx.candidate with
  | some key =>
    let lx := lx.insert key.position .key key.mark
    let lx := lx.openBlock key.mark.column key.position .blockMappingStart key.mark
    .ok ({ lx with candidate := none, keyAllowed := false }.pushIndicator .value 1)
  | none =>
    if lx.inFlow then .ok ({ lx with keyAllowed := false }.pushIndicator .value 1)
    else if !lx.keyAllowed then lx.fault "a mapping value is not allowed here"
    else
      let lx := lx.openBlockHere .blockMappingStart
      .ok ({ lx with keyAllowed := true }.pushIndicator .value 1)

/-- A question mark in front of a key. -/
def keyIndicator (lx : Lexer) : Except Fault Lexer := do
  if !lx.inFlow && !lx.keyAllowed then lx.fault "a mapping key is not allowed here"
  else
    let lx := if lx.inFlow then lx else lx.openBlockHere .blockMappingStart
    let lx ← lx.dropCandidate
    return { lx with keyAllowed := !lx.inFlow }.pushIndicator .key 1

/-- A hyphen in front of an item. -/
def entryIndicator (lx : Lexer) : Except Fault Lexer := do
  if !lx.inFlow && !lx.keyAllowed then lx.fault "a block sequence is not allowed here"
  else
    let lx := if lx.inFlow then lx else lx.openBlockHere .blockSequenceStart
    let lx ← lx.dropCandidate
    return { lx with keyAllowed := true }.pushIndicator .blockEntry 1

/-- The opening bracket of a flow collection, which may be a key as a whole. -/
def openFlow (lx : Lexer) (kind : TokenKind) : Except Fault Lexer := do
  let lx ← lx.saveCandidate
  let lx := lx.pushIndicator kind 1
  return { lx with
    keyAllowed := true, candidate := none, outerCandidates := lx.candidate :: lx.outerCandidates }

/-- The closing bracket of a flow collection. -/
def closeFlow (lx : Lexer) (kind : TokenKind) : Except Fault Lexer := do
  let lx ← lx.dropCandidate
  let lx := { lx with keyAllowed := false }.pushIndicator kind 1
  match lx.outerCandidates with
  | [] => return lx
  | key :: outer => return { lx with candidate := key, outerCandidates := outer }

/-- A comma between the members of a flow collection. -/
def flowEntry (lx : Lexer) : Except Fault Lexer := do
  let lx ← lx.dropCandidate
  return { lx with keyAllowed := true }.pushIndicator .flowEntry 1

/-- A mark between documents, which closes all blocks. -/
def boundary (lx : Lexer) (kind : TokenKind) : Except Fault Lexer := do
  let lx ← (lx.closeBlocks (-1)).dropCandidate
  return { lx with keyAllowed := false }.pushIndicator kind 3

/-- A block scalar, behind which a key may begin. -/
def blockScalar (lx : Lexer) (folded : Bool) : Except Fault Lexer := do
  let lx ← lx.dropCandidate
  let start := lx.cursor.mark
  let (text, stop, c) ← readBlock folded lx.indent lx.cursor
  let token : Token := ⟨.scalar (if folded then .folded else .literal) text, start, stop⟩
  return { lx with keyAllowed := true, tokens := lx.tokens.push token, cursor := c }

/-- A quoted scalar. -/
def quotedScalar (lx : Lexer) (single : Bool) : Except Fault Lexer := do
  let lx ← lx.saveCandidate
  let start := lx.cursor.mark
  let (text, c) ← readQuoted single lx.cursor
  let style := if single then ScalarStyle.singleQuoted else .doubleQuoted
  return { lx.push (.scalar style text) start c with keyAllowed := false }

/-- A plain scalar; behind one that ends with its line a key may begin. -/
def plainScalar (lx : Lexer) : Except Fault Lexer := do
  let lx ← lx.saveCandidate
  let start := lx.cursor.mark
  let scalar ← readPlain lx.inFlow lx.indent lx.cursor
  let token : Token := ⟨.scalar .plain (joinPieces scalar.pieces), start, scalar.stop⟩
  return { lx with
    keyAllowed := scalar.passedLine, tokens := lx.tokens.push token, cursor := scalar.cursor }

/-- The characters that begin something else than a plain scalar. -/
def isIndicator (c : Char) : Bool :=
  ['-', '?', ':', ',', '[', ']', '{', '}', '#', '&', '*', '!', '|', '>', '\'', '"', '%', '@',
    '\x60'].contains c

/-- Whether a plain scalar begins at a character in front of another one. -/
def beginsPlain (inFlow : Bool) (c : Char) (next : Option Char) : Bool :=
  if endsWord (some c) then false
  else if !isIndicator c then true
  else if c == '-' then !next.any isGap
  else !inFlow && (c == '?' || c == ':') && !endsWord next

/-- Reads the token that begins with a character. -/
def tokenAt (lx : Lexer) (c : Char) : Except Fault Lexer :=
  let next := lx.cursor.peekAt 1
  let separate := lx.inFlow || endsWord next
  if lx.cursor.mark.column == 0 && c == '%' then do
    let lx ← (lx.closeBlocks (-1)).dropCandidate
    { lx with keyAllowed := false }.directive
  else if lx.cursor.atDocumentMark '-' then lx.boundary .documentStart
  else if lx.cursor.atDocumentMark '.' then lx.boundary .documentEnd
  else if c == '[' then lx.openFlow .flowSequenceStart
  else if c == '{' then lx.openFlow .flowMappingStart
  else if c == ']' then lx.closeFlow .flowSequenceEnd
  else if c == '}' then lx.closeFlow .flowMappingEnd
  else if c == ',' then lx.flowEntry
  else if c == '-' && endsWord next then lx.entryIndicator
  else if c == '?' && separate then lx.keyIndicator
  else if c == ':' && separate then lx.valueIndicator
  else if c == '*' then lx.named .alias
  else if c == '&' then lx.named .anchor
  else if c == '!' then lx.tag
  else if c == '|' && !lx.inFlow then lx.blockScalar false
  else if c == '>' && !lx.inFlow then lx.blockScalar true
  else if c == '\'' then lx.quotedScalar true
  else if c == '"' then lx.quotedScalar false
  else if beginsPlain lx.inFlow c next then lx.plainScalar
  else lx.fault "no token begins with this character"

/-- Reads all tokens. Every token takes at least one character, which bounds the fuel. -/
def run : Nat → Lexer → Except Fault (Array Token)
  | 0, lx => lx.fault "expected the end of the text"
  | fuel + 1, lx => do
    let lx := toNextToken (lx.cursor.rest.length + 1) lx
    let lx ← lx.dropStale
    let lx := lx.closeBlocks lx.cursor.mark.column
    match lx.cursor.peek with
    | some c => run fuel (← lx.tokenAt c)
    | none =>
      let lx := { lx with cursor := lx.cursor.endLine }.closeBlocks (-1)
      let lx ← lx.dropCandidate
      return lx.tokens.push ⟨.streamEnd, lx.cursor.mark, lx.cursor.mark⟩

end Lexer

/-- The tokens of a text, up to the end of the stream. -/
def tokenize (text : String) : Except Fault (Array Token) :=
  let chars := text.toList
  if chars.all isAllowed then Lexer.run (chars.length + 1) { cursor := ⟨chars, Mark.start⟩ }
  else .error ⟨"the text holds a control character", Mark.start⟩

end Rally.Yaml
