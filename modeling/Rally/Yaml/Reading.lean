import Rally.Yaml.Node
import Rally.Yaml.Scalar
/-!
# Reading typed data from YAML documents

A reader takes a node apart and says what it expected where the node is something else. It follows
aliases, whose number is bounded by the size of the document, so that no short text stands for a
huge value; nested collections are bounded by `depthLimit`. A complaint tells the place of the
innermost value it is about.
-/

namespace Rally.Yaml

/-- One step from a value to a part of it. -/
inductive Step where
  /-- To the value of a key. -/
  | key (name : String)
  /-- To an item. -/
  | item (index : Nat)
  /-- To the value of a key that is no text. -/
  | unnamed
  deriving DecidableEq

/-- The steps from a document to a part of it, the last one first. -/
abbrev Path := List Step

/-- The text of a path, the empty one for the document itself. -/
def Path.text : Path → String
  | [] => ""
  | step :: parents =>
    let start := if parents.isEmpty then "" else Path.text parents ++ "."
    match step with
    | .key name => start ++ name
    | .item index => start ++ "\\[" ++ toString index ++ "\\]"
    | .unnamed => start ++ "?"

/-- Why a node does not hold what was expected. -/
inductive Misfit where
  /-- It is of another kind. -/
  | kind (found expected : String)
  /-- It is of that kind, but not in its range. -/
  | range (found expected : String)
  /-- A field is missing. -/
  | missing (field : String)
  /-- A field occurs twice. -/
  | repeated (field : String)
  /-- A sequence has the wrong length. -/
  | length (found : Nat) (expected : String)
  /-- A rule of the data is broken. -/
  | broken (rule : String)
  /-- The document stands for no value at all. -/
  | noValue
  deriving DecidableEq

/-- The wording of a misfit. -/
def Misfit.message : Misfit → String
  | .kind found expected => s!"invalid type: {found}, expected {expected}"
  | .range found expected => s!"invalid value: {found}, expected {expected}"
  | .missing field => "missing field \x60" ++ field ++ "\x60"
  | .repeated field => "duplicate field \x60" ++ field ++ "\x60"
  | .length found expected => s!"invalid length {found}, expected {expected}"
  | .broken rule => rule
  | .noValue => "no value"

/-- A misfit and the place of the node. -/
structure Complaint where
  /-- What is wrong. -/
  misfit : Misfit
  /-- The way to the node. -/
  path : Path
  /-- Where the node begins. -/
  mark : Mark

/-- The wording of a complaint with its place. -/
def Complaint.message (c : Complaint) : String :=
  let place := if c.path.isEmpty then "" else c.path.text ++ ": "
  place ++ c.misfit.message ++ c.mark.suffix

/-- A computation that counts the aliases it follows. -/
abbrev Reader := StateT Nat (Except Complaint)

/-- A node within its document, and how deep collections may still nest in it. -/
structure Spot where
  /-- The document. -/
  document : Document
  /-- The node, which may be an alias. -/
  node : Node
  /-- The way to it. -/
  path : Path
  /-- The number of collections that may still be opened. -/
  depth : Nat

/-- The number of collections that may contain one another. -/
def depthLimit : Nat := 128

/-- The number of aliases followed for every unit of a document's size. -/
def aliasesPerNode : Nat := 100

namespace Spot

/-- Complains about the node of a spot. -/
def complain {α : Type} (s : Spot) (misfit : Misfit) : Reader α :=
  throw ⟨misfit, s.path, s.node.mark⟩

/-- Follows an alias to its node. -/
def resolve (s : Spot) : Reader Spot := do
  match s.node with
  | .alias _ number =>
    let followed := (← get) + 1
    set followed
    if s.document.size * aliasesPerNode < followed then s.complain .noValue
    else match s.document.node? number with
      | some node => return { s with node }
      | none => s.complain .noValue
  | _ => return s

/-- The spot of a part of a collection. -/
def part (s : Spot) (step : Step) (node : Node) : Spot :=
  { s with node, path := step :: s.path, depth := s.depth - 1 }

/-- The words for what a node holds, where its scalars have a meaning. -/
def found (s : Spot) : Except Misfit String :=
  match s.node with
  | .sequence .. => .ok "sequence"
  | .mapping .. => .ok "map"
  | .alias .. => .error .noValue
  | .scalar _ tag style text =>
    match Scalar.resolve tag style text with
    | .null => .ok "unit value"
    | .bool b => .ok ("boolean \x60" ++ toString b ++ "\x60")
    | .number (.integer n) => .ok ("integer \x60" ++ toString n ++ "\x60")
    | .number (.float x) => .ok ("floating point \x60" ++ x.positionalWithPoint ++ "\x60")
    | .string text => .ok ("string " ++ Text.quote text)
    | .wide => .error .noValue
    | .mismatch text expected => .error (.range ("string " ++ Text.quote text) expected)

/-- Complains that a node is not of an expected kind. -/
def unexpected {α : Type} (s : Spot) (expected : String) : Reader α :=
  match s.found with
  | .ok found => s.complain (.kind found expected)
  | .error misfit => s.complain misfit

/-- Whether a node was left out. -/
def isOmitted (s : Spot) : Bool :=
  match s.node with
  | .scalar _ _ style text => style == .plain && text.isEmpty
  | _ => false

/-- Reads a text: the characters of any scalar. -/
def text (s : Spot) (expected : String) : Reader String := do
  let s ← s.resolve
  match s.node with
  | .scalar _ _ _ text => return text
  | _ => s.unexpected expected

/-- The text of a scalar that may be read as a number: a plain one, or a literal one with the tag
of that kind of number. -/
def numeral? (s : Spot) (kind : String) : Option String :=
  match s.node with
  | .scalar _ tag style text =>
    if style = .plain || (style = .literal && tag = some (Scalar.coreTag kind)) then some text
    else none
  | _ => none

/-- Reads a natural number below `2 ^ 32`. -/
def word (s : Spot) : Reader Nat := do
  let s ← s.resolve
  match (s.numeral? "int").bind fun text => Scalar.unsigned? 64 text.toList with
  | some n =>
    if n.toNat < 1 <<< 32 then return n.toNat
    else s.complain (.range ("integer \x60" ++ toString n ++ "\x60") "u32")
  | none => s.unexpected "u32"

/-- Reads a number with a fraction. -/
def float (s : Spot) : Reader Binary64 := do
  let s ← s.resolve
  match (s.numeral? "float").bind Scalar.float? with
  | some x => return x
  | none => s.unexpected "f64"

/-- Opens a collection, of which only so many may nest. -/
def enter (s : Spot) : Reader Unit :=
  if s.depth = 0 then s.complain .noValue else return

/-- The items of a sequence; one that was left out has none. -/
def items (s : Spot) (expected : String) : Reader (Spot × List Spot) := do
  let s ← s.resolve
  match s.node with
  | .sequence _ _ items =>
    s.enter
    return (s, items.zipIdx.map fun (node, i) => s.part (.item i) node)
  | _ => if s.isOmitted then return (s, []) else s.unexpected expected

/-- The entries of a mapping; one that was left out has none. -/
def entries (s : Spot) (expected : String) : Reader (Spot × List (Node × Node)) := do
  let s ← s.resolve
  match s.node with
  | .mapping _ _ entries =>
    s.enter
    return (s, entries)
  | _ => if s.isOmitted then return (s, []) else s.unexpected expected

/-- The step to the value of a key. -/
def stepOf : Node → Step
  | .scalar _ _ _ text => .key text
  | _ => .unnamed

/-- The spot of a key, which has the path of its mapping. -/
def ofKey (s : Spot) (key : Node) : Spot := { s with node := key, depth := s.depth - 1 }

/-- Takes the fields of a mapping apart: each name with the spot of its value. -/
def fields (s : Spot) (names : List String) (entries : List (Node × Node))
    {α : Type} (read : String → Spot → α → Reader α) : List String → α → Reader α :=
  match entries with
  | [] => fun _ record => return record
  | (key, value) :: rest => fun seen record => do
    let name ← (s.ofKey key).text "field identifier"
    if !names.contains name then fields s names rest read seen record
    else if seen.contains name then s.complain (.repeated name)
    else
      let record ← read name (s.part (stepOf key) value) record
      fields s names rest read (name :: seen) record

end Spot

/-- Whether a key occurs among entries. -/
def hasKey (key : Value) : List (Value × Value) → Bool
  | [] => false
  | (k, _) :: rest => key.same k || hasKey key rest

/-- Puts the name of a local tag in front of a value; such a tag has a name. -/
def Spot.labelled (s : Spot) (tag : Option String) (value : Value) : Reader Value :=
  match tag with
  | none => return value
  | some tag =>
    if !tag.startsWith "!" then return value
    else if tag = "!" then s.complain .noValue
    else return .tagged (String.ofList (tag.toList.drop 1)) value

/-- Reads a scalar as a value. -/
def Spot.scalar (s : Spot) (tag : Option String) (style : ScalarStyle) (text : String) :
    Reader Value :=
  match (Scalar.resolve tag style text).value? with
  | some value => s.labelled tag value
  | none => s.complain .noValue

/-- Reads any value at a spot, with a bound on the collections that nest in it. A mapping has no two
equal keys. -/
def readValue : Nat → Spot → Reader Value
  | 0, s => do
    let s ← s.resolve
    match s.node with
    | .scalar _ tag style text => s.scalar tag style text
    | _ => s.complain .noValue
  | depth + 1, s => do
    let s ← s.resolve
    match s.node with
    | .alias .. => s.complain .noValue
    | .scalar _ tag style text => s.scalar tag style text
    | .sequence _ tag items => do
      let values ← items.zipIdx.mapM fun (node, i) => readValue depth (s.part (.item i) node)
      s.labelled tag (.sequence values)
    | .mapping _ tag entries => do
      let pairs ← entries.foldlM (fun pairs (key, value) => do
        let key ← readValue depth (s.ofKey key)
        if hasKey key pairs then s.complain .noValue
        let value ← readValue depth (s.part .unnamed value)
        return (key, value) :: pairs) []
      s.labelled tag (.mapping pairs.reverse)

/-- Reads any value. -/
def Spot.value (s : Spot) : Reader Value := readValue s.depth s

/-- The spot of a document's own node. -/
def Document.spot (document : Document) (root : Node) : Spot := ⟨document, root, [], depthLimit⟩

/-- Whether a document stands for a value at all. -/
def Document.hasValue (document : Document) (root : Node) : Bool :=
  ((document.spot root).value.run 0).isOk

end Rally.Yaml
