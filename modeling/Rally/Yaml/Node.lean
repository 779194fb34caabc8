import Rally.Yaml.Lexer
/-!
# From YAML tokens to nodes

The tokens of a document make up one tree. An anchor numbers the node that carries it, an alias
refers to such a number, and a number that is given twice stands for the later node. Where a token
shows that something was left out, an empty plain scalar stands in its place.
-/

namespace Rally.Yaml

/-- A node of a document, with the place where it begins and its tag. -/
inductive Node where
  /-- A text. -/
  | scalar (mark : Mark) (tag : Option String) (style : ScalarStyle) (text : String)
  /-- Items in order. -/
  | sequence (mark : Mark) (tag : Option String) (items : List Node)
  /-- Keys with their values in order. -/
  | mapping (mark : Mark) (tag : Option String) (entries : List (Node × Node))
  /-- A reference to the anchored node of a number. -/
  | alias (mark : Mark) (number : Nat)
  deriving Inhabited

/-- Where a node begins. -/
def Node.mark : Node → Mark
  | .scalar mark .. => mark
  | .sequence mark .. => mark
  | .mapping mark .. => mark
  | .alias mark _ => mark

/-- A document read from a text. -/
structure Document where
  /-- Its node, unless the text holds none. -/
  root : Option Node
  /-- The anchored nodes with their numbers, in the order of their beginnings. -/
  anchored : Array (Nat × Node)
  /-- The number of scalars and aliases, and twice the number of collections. -/
  size : Nat

/-- The anchored node of a number. -/
def Document.node? (document : Document) (number : Nat) : Option Node :=
  (document.anchored.toList.reverse.find? fun (n, _) => n == number).map Prod.snd

/-- What is left of the tokens of a document, and what was learnt from those before. -/
structure Composer where
  /-- The tokens ahead. -/
  tokens : List Token
  /-- The tags that handles stand for. -/
  handles : List (String × String) := []
  /-- The number that each anchor name last gave. -/
  names : List (String × Nat) := []
  /-- The anchored nodes with their numbers; one still being read is an alias of itself. -/
  anchored : Array (Nat × Node) := #[]
  /-- The size of the nodes read so far. -/
  size : Nat := 0

/-- The properties in front of a node. -/
structure Properties where
  /-- The name that aliases use. -/
  anchor : Option String := none
  /-- The resolved tag. -/
  tag : Option String := none
  /-- Where the first of them begins. -/
  mark : Option Mark := none

namespace Composer

/-- What the next token says. -/
def peek (c : Composer) : TokenKind :=
  match c.tokens with
  | [] => .streamEnd
  | token :: _ => token.kind

/-- The place where the next token begins. -/
def start (c : Composer) : Mark := (c.tokens.head?.map Token.start).getD Mark.start

/-- The place behind the next token. -/
def stop (c : Composer) : Mark := (c.tokens.head?.map Token.stop).getD Mark.start

/-- Passes one token. -/
def skip (c : Composer) : Composer := { c with tokens := c.tokens.tail }

/-- A fault at the next token. -/
def fault {α : Type} (c : Composer) (problem : String) : Except Fault α :=
  .error ⟨problem, c.start⟩

/-- Counts a node. -/
def grow (c : Composer) (events : Nat) : Composer := { c with size := c.size + events }

/-- The empty plain scalar at a place. -/
def empty (c : Composer) (mark : Mark) : Node × Composer :=
  (.scalar mark none .plain "", c.grow 1)

/-- The tag that a handle and the text behind it stand for. -/
def resolveTag (c : Composer) (handle text : String) : Except Fault String :=
  if handle.isEmpty then .ok text
  else match c.handles.lookup handle with
    | some start => .ok (start ++ text)
    | none => c.fault "a tag handle was not defined"

/-- Reads an anchor. -/
def anchor? (c : Composer) : Option String × Composer :=
  match c.peek with
  | .anchor name => (some name, c.skip)
  | _ => (none, c)

/-- Reads a tag. -/
def tag? (c : Composer) : Except Fault (Option String × Composer) :=
  match c.peek with
  | .tag handle text => (c.resolveTag handle text).map fun tag => (some tag, c.skip)
  | _ => .ok (none, c)

/-- Reads an anchor and a tag in either order. -/
def properties (c : Composer) : Except Fault (Properties × Composer) := do
  let mark := c.start
  let (anchor, c) := c.anchor?
  let (tag, c) ← c.tag?
  let (anchor, c) := if anchor.isNone && tag.isSome then c.anchor? else (anchor, c)
  let found := anchor.isSome || tag.isSome
  return ({ anchor, tag, mark := if found then some mark else none }, c)

/-- Numbers the anchor of a node that begins here and gives the node's slot. The number is that of
the names known before. -/
def open? (c : Composer) (anchor : Option String) (mark : Mark) : Option Nat × Composer :=
  match anchor with
  | none => (none, c)
  | some name =>
    let number := c.names.length
    let others := c.names.filter fun (n, _) => n != name
    (some c.anchored.size, { c with
      names := (name, number) :: others
      anchored := c.anchored.push (number, .alias mark number) })

/-- Puts a finished node into its slot. -/
def close (c : Composer) (slot : Option Nat) (node : Node) : Node × Composer :=
  match slot with
  | none => (node, c)
  | some i => (node, { c with anchored := c.anchored.modify i fun (number, _) => (number, node) })

/-- Whether a value stands behind the next token of a block mapping. -/
def hasBlockContent (c : Composer) : Bool :=
  match c.peek with
  | .key | .value | .blockEnd => false
  | _ => true

/-- Whether an item stands behind the hyphen of a block sequence; an indentless one also ends
where its mapping goes on. -/
def hasItem (c : Composer) (indentless : Bool) : Bool :=
  match c.peek with
  | .blockEntry | .blockEnd => false
  | .key | .value => !indentless
  | _ => true

/-- Whether a node stands in a flow collection with a closing bracket. -/
def hasFlowContent (c : Composer) (closing : TokenKind) : Bool :=
  c.peek != .flowEntry && c.peek != closing

/-- Passes the comma in front of a further member of a flow collection. -/
def separator (c : Composer) (first : Bool) : Except Fault Composer :=
  if first then .ok c
  else if c.peek == .flowEntry then .ok c.skip
  else c.fault "expected a comma or a closing bracket"

mutual

/-- Reads a node. A block may begin here only where `block` says so, and a block sequence without
indentation only behind a key. Fuel is spent by every call. -/
def node (block indentless : Bool) : Nat → Composer → Except Fault (Node × Composer)
  | 0, c => c.fault "a document is too deep"
  | fuel + 1, c => do
    if let .alias name := c.peek then
      match c.names.lookup name with
      | some number => return (.alias c.start number, c.skip.grow 1)
      | none => c.fault "unknown anchor"
    else
    let (found, c) ← c.properties
    let mark := found.mark.getD c.start
    let (slot, c) := c.open? found.anchor mark
    match c.peek with
    | .scalar style text =>
      let tag := if found.tag = some "!" then none else found.tag
      return (c.skip.grow 1).close slot (.scalar mark tag style text)
    | .blockEntry =>
      if !indentless then propertiesOnly found slot mark c
      else
        let (items, c) ← blockItems true fuel (c.grow 2)
        return c.close slot (.sequence mark found.tag items)
    | .flowSequenceStart =>
      let (items, c) ← flowItems true fuel (c.skip.grow 2)
      return c.close slot (.sequence mark found.tag items)
    | .flowMappingStart =>
      let (entries, c) ← flowEntries true fuel (c.skip.grow 2)
      return c.close slot (.mapping mark found.tag entries)
    | .blockSequenceStart =>
      if !block then propertiesOnly found slot mark c
      else
        let (items, c) ← blockItems false fuel (c.skip.grow 2)
        return c.close slot (.sequence mark found.tag items)
    | .blockMappingStart =>
      if !block then propertiesOnly found slot mark c
      else
        let (entries, c) ← blockEntries fuel (c.skip.grow 2)
        return c.close slot (.mapping mark found.tag entries)
    | _ => propertiesOnly found slot mark c
where
  /-- Properties without a node stand for an empty plain scalar. -/
  propertiesOnly (found : Properties) (slot : Option Nat) (mark : Mark) (c : Composer) :
      Except Fault (Node × Composer) :=
    if found.mark.isSome then .ok ((c.grow 1).close slot (.scalar mark found.tag .plain ""))
    else c.fault "expected a node"

/-- Reads a node, or an empty scalar where there is none. -/
def nodeOrEmpty (present block indentless : Bool) (mark : Mark) :
    Nat → Composer → Except Fault (Node × Composer)
  | 0, c => c.fault "a document is too deep"
  | fuel + 1, c => if present then node block indentless fuel c else .ok (c.empty mark)

/-- Reads the items of a block sequence, up to its end. -/
def blockItems (indentless : Bool) : Nat → Composer → Except Fault (List Node × Composer)
  | 0, c => c.fault "a document is too deep"
  | fuel + 1, c => do
    if c.peek == .blockEntry then
      let mark := c.stop
      let c := c.skip
      let (item, c) ← nodeOrEmpty (c.hasItem indentless) true false mark fuel c
      let (items, c) ← blockItems indentless fuel c
      return (item :: items, c)
    else if indentless then return ([], c)
    else if c.peek == .blockEnd then return ([], c.skip)
    else c.fault "expected a hyphen"

/-- Reads the entries of a block mapping, up to its end. -/
def blockEntries : Nat → Composer → Except Fault (List (Node × Node) × Composer)
  | 0, c => c.fault "a document is too deep"
  | fuel + 1, c => do
    if c.peek == .blockEnd then return ([], c.skip)
    else
    let (key, c) ←
      if c.peek == .key then
        let mark := c.stop
        let c := c.skip
        nodeOrEmpty c.hasBlockContent true true mark fuel c
      else c.fault "expected a key"
    let (value, c) ←
      if c.peek == .value then
        let mark := c.stop
        let c := c.skip
        nodeOrEmpty c.hasBlockContent true true mark fuel c
      else pure (c.empty c.start)
    let (entries, c) ← blockEntries fuel c
    return ((key, value) :: entries, c)

/-- Reads the items of a flow sequence, up to its closing bracket. A key in it begins a mapping of
one entry. -/
def flowItems (first : Bool) : Nat → Composer → Except Fault (List Node × Composer)
  | 0, c => c.fault "a document is too deep"
  | fuel + 1, c => do
    if c.peek == .flowSequenceEnd then return ([], c.skip)
    else
    let c ← c.separator first
    if c.peek == .flowSequenceEnd then return ([], c.skip)
    else
    let (item, c) ← if c.peek == .key then singleEntry fuel c else node false false fuel c
    let (items, c) ← flowItems false fuel c
    return (item :: items, c)

/-- Reads the mapping of one entry inside of a flow sequence. Where its key is left out, the token
that shows it is passed. -/
def singleEntry : Nat → Composer → Except Fault (Node × Composer)
  | 0, c => c.fault "a document is too deep"
  | fuel + 1, c => do
    let mark := c.start
    let c := (c.skip).grow 2
    let (key, c) ←
      if c.hasFlowContent .flowSequenceEnd && c.peek != .value then node false false fuel c
      else pure (c.skip.empty c.stop)
    let (value, c) ←
      if c.peek == .value then
        let c := c.skip
        nodeOrEmpty (c.hasFlowContent .flowSequenceEnd) false false c.start fuel c
      else pure (c.empty c.start)
    return (.mapping mark none [(key, value)], c)

/-- Reads the entries of a flow mapping, up to its closing brace. Without a key indicator a node
has an empty value. -/
def flowEntries (first : Bool) : Nat → Composer → Except Fault (List (Node × Node) × Composer)
  | 0, c => c.fault "a document is too deep"
  | fuel + 1, c => do
    if c.peek == .flowMappingEnd then return ([], c.skip)
    else
    let c ← c.separator first
    if c.peek == .flowMappingEnd then return ([], c.skip)
    else
    let (entry, c) ←
      if c.peek == .key then do
        let c := c.skip
        let present := c.hasFlowContent .flowMappingEnd && c.peek != .value
        let (key, c) ← nodeOrEmpty present false false c.start fuel c
        let (value, c) ←
          if c.peek == .value then
            let c := c.skip
            nodeOrEmpty (c.hasFlowContent .flowMappingEnd) false false c.start fuel c
          else pure (c.empty c.start)
        pure ((key, value), c)
      else do
        let (key, c) ← node false false fuel c
        let (value, c) := c.empty c.start
        pure ((key, value), c)
    let (entries, c) ← flowEntries false fuel c
    return (entry :: entries, c)

end

/-- The tags that the two short handles stand for. -/
def standardHandles : List (String × String) := [("!", "!"), ("!!", "tag:yaml.org,2002:")]

/-- Reads directives: at most one version, which is 1.1 or 1.2, and handles that all differ. -/
def directives : List Token → Bool → List (String × String) →
    Except Fault (List Token × List (String × String))
  | token :: rest, versioned, handles =>
    match token.kind with
    | .version major minor =>
      if versioned then .error ⟨"a second version", token.start⟩
      else if major != 1 || (minor != 1 && minor != 2) then
        .error ⟨"an unknown version", token.start⟩
      else directives rest true handles
    | .tagHandle handle text =>
      if (handles.lookup handle).isSome then .error ⟨"a second tag handle", token.start⟩
      else directives rest versioned ((handle, text) :: handles)
    | _ => .ok (token :: rest, handles)
  | [], _, handles => .ok ([], handles)

/-- Whether a document has content behind its start. -/
def hasDocument (c : Composer) : Bool :=
  match c.peek with
  | .version .. | .tagHandle .. | .documentStart | .documentEnd | .streamEnd => false
  | _ => true

/-- Reads the only document of a stream. -/
def document (tokens : List Token) : Except Fault Document := do
  let fuel := 4 * tokens.length + 4
  if ({ tokens } : Composer).peek == .streamEnd then
    return { root := none, anchored := #[], size := 0 }
  let (rest, handles) ← directives tokens false []
  let c : Composer := { tokens := rest, handles := handles ++ standardHandles }
  let (root, c) ←
    if c.peek == .documentStart then
      let c := c.skip
      nodeOrEmpty c.hasDocument true false c.start fuel c
    else if rest.length = tokens.length then node true false fuel c
    else c.fault "expected the start of a document"
  let ending := c.tokens.dropWhile fun token => token.kind == .documentEnd
  match ending.head?.map Token.kind with
  | some .streamEnd => return { root := some root, anchored := c.anchored, size := c.size }
  | _ => c.fault "expected the end of the document"

end Composer

/-- Reads the only document of a text. -/
def Document.ofText (text : String) : Except Fault Document := do
  Composer.document (← tokenize text).toList

end Rally.Yaml
