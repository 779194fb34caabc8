import Rally.Yaml.Cursor
import Rally.Yaml.Scalar
/-!
# Writing YAML

Values are written in block style with two columns for each level. A text is plain where it reads
back as a text, quoted where it would not, and a literal block where it has line ends and the block
keeps them. Sequences in mappings are not indented.
-/

namespace Rally.Yaml

namespace Printer

/-- How the characters of a text restrict its style. -/
structure Shape where
  /-- Whether the text has line ends. -/
  multiline : Bool
  /-- Whether it may be written plain. -/
  plain : Bool
  /-- Whether it may be written between single quotation marks. -/
  quoted : Bool
  /-- Whether it may be written as a block. -/
  block : Bool

/-- The characters that are written as they are. -/
def isPrintable (c : Char) : Bool :=
  let n := c.toNat
  n == 0x0A || (0x20 ≤ n && n ≤ 0x7E) || (0xA0 ≤ n && n ≤ 0xFFFD && n != 0xFEFF) || 0x10000 ≤ n

/-- The characters that begin something else than a plain scalar. -/
def opensNode (c : Char) : Bool :=
  ['#', ',', '[', ']', '{', '}', '&', '*', '!', '|', '>', '\'', '"', '%', '@', '\x60'].contains c

/-- Whether an indicator stands behind the first character of a text: a colon in front of a gap, or
a number sign behind one. -/
def hasInnerIndicator : Char → List Char → Bool
  | _, [] => false
  | before, c :: rest =>
    (c == ':' && endsWord rest.head?) || (c == '#' && endsWord (some before)) ||
      hasInnerIndicator c rest

/-- Whether a text begins with an indicator, or holds one. -/
def hasIndicator : List Char → Bool
  | [] => false
  | c :: rest =>
    opensNode c || (['?', ':', '-'].contains c && endsWord rest.head?) || hasInnerIndicator c rest

/-- Whether two neighbours are of two kinds. -/
def hasNeighbours (left right : Char → Bool) : List Char → Bool
  | x :: y :: rest => (left x && right y) || hasNeighbours left right (y :: rest)
  | _ => false

/-- The restrictions on the style of a text. -/
def shape (text : List Char) : Shape :=
  let blank (c : Char) : Bool := c == ' '
  let multiline := text.any isBreak
  let marks := text.take 3 == ['-', '-', '-'] || text.take 3 == ['.', '.', '.']
  let edge := text.head?.any (fun c => blank c || isBreak c) ||
    text.getLast?.any (fun c => blank c || isBreak c)
  let special := text.any (fun c => !isPrintable c) || hasNeighbours blank isBreak text
  let indented := hasNeighbours isBreak blank text
  { multiline
    plain := !(edge || multiline || special || marks || hasIndicator text)
    quoted := !(indented || special)
    block := !text.isEmpty && !special && !text.getLast?.any blank }

/-- Words that some readers of YAML take for truth values. -/
def isLooseBool (text : String) : Bool :=
  ["y", "Y", "yes", "Yes", "YES", "n", "N", "no", "No", "NO", "true", "True", "TRUE", "false",
    "False", "FALSE", "on", "On", "ON", "off", "Off", "OFF"].contains text

/-- Texts that look too much like something else. -/
def isAmbiguous (text : String) : Bool :=
  let lower := String.ofList (text.toList.map Char.toLower)
  ["true", "false", "null", "~", "nan"].contains lower ||
    text.toList.head?.any fun c => c.isDigit || c == '-' || c == '.' || c == '+'

/-- The style that suits what a text says. -/
def wantedStyle (text : String) : ScalarStyle :=
  if isLooseBool text then .singleQuoted
  else if text.toList.contains '\n' then .literal
  else match Scalar.ofPlain text with
    | .string text => if isAmbiguous text then .singleQuoted else .plain
    | _ => .singleQuoted

/-- The style that a text is written in; a key stands on one line. -/
def chooseStyle (wanted : ScalarStyle) (key : Bool) (text : String) : ScalarStyle :=
  let shape := shape text.toList
  let wanted := if key && shape.multiline then .doubleQuoted else wanted
  let wanted :=
    if wanted = .plain && (!shape.plain || (text.isEmpty && key)) then .singleQuoted else wanted
  match wanted with
  | .singleQuoted => if shape.quoted then .singleQuoted else .doubleQuoted
  | .literal | .folded => if shape.block && !key then wanted else .doubleQuoted
  | wanted => wanted

end Printer

/-- What is written so far. -/
structure Page where
  /-- The text. -/
  text : String := ""
  /-- The characters on the last line. -/
  column : Nat := 0
  /-- Whether a gap is written in front of what follows. -/
  spaced : Bool := true
  /-- Whether nothing but indentation and indicators is written on the last line. -/
  indented : Bool := true

namespace Page

/-- Writes a character. -/
def put (page : Page) (c : Char) : Page :=
  { page with
    text := page.text.push c, column := if isBreak c then 0 else page.column + 1 }

/-- Writes characters. -/
def putAll (page : Page) (text : List Char) : Page := text.foldl put page

/-- Writes an indicator, behind a space unless a gap is written already. -/
def indicator (page : Page) (mark : List Char) (apart spaced indented : Bool) : Page :=
  let page := if apart && !page.spaced then page.put ' ' else page
  { page.putAll mark with spaced, indented := page.indented && indented }

/-- Goes to a column, on a new line unless the last line leads there. -/
def goTo (page : Page) (column : Nat) : Page :=
  let page :=
    if !page.indented || column < page.column || (page.column == column && !page.spaced) then
      page.put '\n'
    else page
  { page.putAll (List.replicate (column - page.column) ' ') with spaced := true, indented := true }

/-- Notes that text was written. -/
def written (page : Page) : Page := { page with spaced := false, indented := false }

/-- Writes a plain text. -/
def plain (page : Page) (text : List Char) : Page :=
  let page := if !page.spaced && !text.isEmpty then page.put ' ' else page
  (page.putAll text).written

/-- Writes a text between single quotation marks; line ends are doubled, and what follows them is
indented. -/
def singleQuoted (page : Page) (column : Nat) (text : List Char) : Page :=
  let step (state : Page × Bool) (c : Char) : Page × Bool :=
    let (page, broken) := state
    if isBreak c then
      let page := if !broken && c == '\n' then page.put '\n' else page
      ({ page.put c with indented := true }, true)
    else if c == ' ' then (page.put c, broken)
    else
      let page := if broken then page.goTo column else page
      let page := if c == '\'' then page.put c else page
      ({ page.put c with indented := false }, false)
  let (page, broken) := text.foldl step (page.indicator ['\''] true false false, false)
  let page := if broken then page.goTo column else page
  (page.indicator ['\''] false false false).written

/-- The digits of a number in radix sixteen, padded with zeros. -/
def hexDigits (width n : Nat) : List Char :=
  let digits := (Nat.toDigits 16 n).map Char.toUpper
  List.replicate (width - digits.length) '0' ++ digits

/-- The letter of a character that has one behind a backslash. -/
def escapeLetter? (c : Char) : Option Char :=
  match c.toNat with
  | 0x00 => some '0'
  | 0x07 => some 'a'
  | 0x08 => some 'b'
  | 0x09 => some 't'
  | 0x0A => some 'n'
  | 0x0B => some 'v'
  | 0x0C => some 'f'
  | 0x0D => some 'r'
  | 0x1B => some 'e'
  | 0x22 => some '"'
  | 0x5C => some '\\'
  | 0x85 => some 'N'
  | 0xA0 => some '_'
  | 0x2028 => some 'L'
  | 0x2029 => some 'P'
  | _ => none

/-- A character between double quotation marks. -/
def escaped (c : Char) : List Char :=
  if Printer.isPrintable c && !isBreak c && c != '"' && c != '\\' then [c]
  else match escapeLetter? c with
    | some letter => ['\\', letter]
    | none =>
      let n := c.toNat
      if n ≤ 0xFF then '\\' :: 'x' :: hexDigits 2 n
      else if n ≤ 0xFFFF then '\\' :: 'u' :: hexDigits 4 n
      else '\\' :: 'U' :: hexDigits 8 n

/-- Writes a text between double quotation marks. -/
def doubleQuoted (page : Page) (text : List Char) : Page :=
  let page := page.indicator ['"'] true false false
  let page := page.putAll (text.flatMap escaped)
  (page.indicator ['"'] false false false).written

/-- The signs behind the indicator of a literal block: the indentation if the text begins with a
gap, and what becomes of the line ends behind it. -/
def literalSigns (text : List Char) : List Char :=
  let indentation := if text.head?.any (fun c => c == ' ' || isBreak c) then ['2'] else []
  let chomping := match text.reverse with
    | [] => ['-']
    | last :: before =>
      if !isBreak last then ['-']
      else match before with
        | [] => ['+']
        | c :: _ => if isBreak c then ['+'] else []
  indentation ++ chomping

/-- Writes a text as a literal block. -/
def literal (page : Page) (column : Nat) (text : List Char) : Page :=
  let page := page.indicator ['|'] true false false
  let page := page.indicator (literalSigns text) false false false
  let page := { page.put '\n' with spaced := true, indented := true }
  let step (state : Page × Bool) (c : Char) : Page × Bool :=
    let (page, broken) := state
    if isBreak c then ({ page.put c with indented := true }, true)
    else
      let page := if broken then page.goTo column else page
      ({ page.put c with indented := false }, false)
  (text.foldl step (page, true)).1

/-- Writes a scalar in a style. -/
def scalar (page : Page) (column : Nat) (style : ScalarStyle) (text : String) : Page :=
  match style with
  | .plain => page.plain text.toList
  | .singleQuoted => page.singleQuoted column text.toList
  | .doubleQuoted => page.doubleQuoted text.toList
  | .literal | .folded => page.literal column text.toList

/-- The characters of a tag that stand for themselves. -/
def isTagChar (c : Char) : Bool :=
  isWordChar c || [';', '/', '?', ':', '@', '&', '=', '+', '$', ',', '.', '~', '*', '\'', '(', ')',
    '[', ']'].contains c

/-- A character of a tag. -/
def tagChar (c : Char) : List Char :=
  if isTagChar c then [c]
  else c.toString.toUTF8.toList.flatMap fun octet => '%' :: hexDigits 2 octet.toNat

/-- Writes a local tag. -/
def tag (page : Page) (name : String) : Page :=
  let page := if page.spaced then page else page.put ' '
  (page.putAll ('!' :: name.toList.flatMap tagChar)).written

end Page

namespace Value

/-- The scalar that a value is written as, unless it is a collection or carries a tag. -/
def scalar? : Value → Option (ScalarStyle × String)
  | .null => some (.plain, "null")
  | .bool b => some (.plain, toString b)
  | .number n => some (.plain, n.text)
  | .string text => some (Printer.wantedStyle text, text)
  | _ => none

/-- The octets of a value on one line, or none if it needs several lines. -/
def inlineSize? : Value → Option Nat
  | .sequence items => if items.isEmpty then some 0 else none
  | .mapping entries => if entries.isEmpty then some 0 else none
  | .tagged tag value => (inlineSize? value).map fun size => 1 + tag.utf8ByteSize + size
  | value =>
    value.scalar?.bind fun (_, text) =>
      if text.toList.any isBreak then none else some text.utf8ByteSize

/-- Whether a value stands in front of its colon on one line. -/
def isSimpleKey (value : Value) : Bool := value.inlineSize?.any (· ≤ 128)

/-- The column of a collection inside of another one. -/
def inner (column : Option Nat) (flush : Bool) : Nat :=
  match column with
  | none => 0
  | some n => if flush then n else n + 2

/-- The column of the lines of a scalar. -/
def scalarColumn (column : Option Nat) : Nat := column.getD 0 + 2

mutual

/-- Writes a value inside of a collection at a column. -/
def write (column : Option Nat) (inMapping key : Bool) : Value → Page → Page
  | .sequence items, page =>
    if items.isEmpty then
      (page.indicator ['['] true true false).indicator [']'] false false false
    else writeItems (inner column (inMapping && !page.indented)) items page
  | .mapping entries, page =>
    if entries.isEmpty then
      (page.indicator ['{'] true true false).indicator ['}'] false false false
    else writeEntries (inner column false) entries page
  | .tagged tag value, page => write column inMapping key value (page.tag tag)
  | value, page =>
    match value.scalar? with
    | some (style, text) =>
      page.scalar (scalarColumn column) (Printer.chooseStyle style key text) text
    | none => page

/-- Writes the items of a sequence at a column. -/
def writeItems (column : Nat) : List Value → Page → Page
  | [], page => page
  | item :: rest, page =>
    let page := (page.goTo column).indicator ['-'] true false true
    writeItems column rest (write (some column) false false item page)

/-- Writes the entries of a mapping at a column. -/
def writeEntries (column : Nat) : List (Value × Value) → Page → Page
  | [], page => page
  | (key, value) :: rest, page =>
    let page := page.goTo column
    let page :=
      if key.isSimpleKey then
        (write (some column) true true key page).indicator [':'] false false false
      else
        let page := write (some column) true false key (page.indicator ['?'] true false true)
        (page.goTo column).indicator [':'] true false true
    writeEntries column rest (write (some column) true false value page)

end

/-- The text of a value. -/
def print (value : Value) : String := ((value.write none false false {}).goTo 0).text

end Value

end Rally.Yaml
