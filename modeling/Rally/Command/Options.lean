import Rally.Number.Integer
import Rally.Time.Instant
/-!
# Command line options

Options are long names behind hyphens, with a value behind an equals sign or in the next word. A
word that begins with a hyphen is never the value of an option in front of it. Values are read only
when the words as such make sense.
-/

namespace Rally

/-- Why a command line asks for no run. -/
inductive OptionsError where
  /-- The words make no sense. -/
  | usage
  /-- A value cannot be read. -/
  | invalidValue (option complaint : String)
  /-- The version was asked for. -/
  | version
  /-- Help was asked for. -/
  | help
  deriving DecidableEq

/-- What a run is asked to do. -/
structure CommandOptions where
  /-- The number of pairs in the ring. -/
  num : Nat := 2
  /-- The messages that each initiator waits for. -/
  repeats : Nat := 5
  /-- Whether a single pair plays. -/
  simple : Bool := false
  /-- The file that holds the topology. -/
  topology : Option String := none
  /-- The bound on the simulated time. -/
  maxTime : Option Instant := none
  /-- Whether the run prints nothing. -/
  quiet : Bool := false
  deriving DecidableEq

namespace CommandOptions

/-- An option or flag that occurred, with its value if one was given. -/
abbrev Occurrence := String × Option String

/-- The options with values. -/
def valued : List String := ["num", "repeats", "topology", "max-time"]

/-- The flags. -/
def flags : List String := ["simple", "quiet"]

/-- A long option without its hyphens: its name, and the value behind an equals sign. -/
def splitLong (word : List Char) : String × Option String :=
  let body := word.dropWhile (· == '-')
  let name := body.takeWhile (· != '=')
  let value := (body.dropWhile (· != '=')).dropWhile (· == '=')
  (String.ofList name, if word.contains '=' then some (String.ofList value) else none)

/-- Whether a word begins an option: it begins with a hyphen and is not just one. -/
def isOption (word : List Char) : Bool := word.head? == some '-' && word != ['-']

/-- Reads words into occurrences, the last one first, while the value of the first occurrence may
still follow. Two hyphens alone end the options, and nothing but their like may follow. -/
def scan (pending : Bool) (seen : List Occurrence) :
    List String → Except OptionsError (List Occurrence)
  | [] => .ok seen
  | word :: rest =>
    let chars := word.toList
    if chars = ['-', '-'] then if rest.all (· == "--") then .ok seen else .error .usage
    else if isOption chars then
      if chars.take 2 = ['-', '-'] then
        let (name, value) := splitLong chars
        if valued.contains name then scan value.isNone ((name, value) :: seen) rest
        else if flags.contains name then scan false ((name, none) :: seen) rest
        else if name = "version" then .error .version
        else if name = "help" then .error .help
        else .error .usage
      else if chars[1]? = some 'V' then .error .version
      else if chars[1]? = some 'h' then .error .help
      else .error .usage
    else if pending then
      match seen with
      | (name, _) :: before => scan false ((name, some word) :: before) rest
      | [] => .error .usage
    else .error .usage

/-- The values given for an option, in order. -/
def valuesOf (name : String) (seen : List Occurrence) : List String :=
  seen.reverse.filterMap fun (n, value) => if n = name then value else none

/-- How often an option occurred. -/
def countOf (name : String) (seen : List Occurrence) : Nat :=
  (seen.filter fun (n, _) => n == name).length

/-- The value of an option that occurs at most once, or nothing where none was given. -/
def single {α : Type} (name : String) (seen : List Occurrence)
    (read : String → Except String α) : Except OptionsError (Option α) := do
  let values ← (valuesOf name seen).mapM fun text =>
    (read text).mapError (OptionsError.invalidValue name)
  if 1 < countOf name seen then throw .usage
  return values.head?

/-- Reads a natural number of some bits. -/
def natural (bits : Nat) (text : String) : Except String Nat :=
  (Integer.readUnsigned bits text).mapError IntegerError.message

/-- Reads a number of seconds. -/
def time (text : String) : Except String Instant :=
  match Instant.parse? text with
  | some time => .ok time
  | none => .error (Instant.invalidMessage text)

/-- Whether an option without a default waits in vain for a value. -/
def lacksValue (seen : List Occurrence) : Bool :=
  ["topology", "max-time"].any fun name =>
    decide (0 < countOf name seen) && (valuesOf name seen).isEmpty

/-- Reads the words of a command line. -/
def parse (words : List String) : Except OptionsError CommandOptions := do
  let seen ← scan false [] words
  if lacksValue seen then throw .usage
  if 0 < countOf "topology" seen ∧ 0 < countOf "simple" seen then throw .usage
  let num ← single "num" seen (natural 32)
  let repeats ← single "repeats" seen (natural 64)
  let maxTime ← single "max-time" seen time
  let topology ← single "topology" seen Except.ok
  if 1 < countOf "simple" seen ∨ 1 < countOf "quiet" seen then throw .usage
  return {
    num := num.getD 2
    repeats := repeats.getD 5
    simple := 0 < countOf "simple" seen
    topology
    maxTime
    quiet := 0 < countOf "quiet" seen }

end CommandOptions

end Rally
