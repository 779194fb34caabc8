import Rally.Log.Level
import Rally.Text.Blank
import Rally.Text.Split
/-!
# Which log lines are kept

A filter is a list of rules, each for the targets that begin with a name. The rule with the longest
name that fits a target decides. Rules are written `name=level`, `name` or `level`, with commas
between them.
-/

namespace Rally

/-- The lowest level shown for the targets that begin with a name. -/
structure FilterRule where
  /-- The beginning of the targets. -/
  target : String
  /-- The lowest level shown, nothing at all if there is none. -/
  lowest : Option Level

/-- Rules for which log lines are kept. -/
structure Filter where
  /-- The rules, of which a later one of the same name decides. -/
  rules : List FilterRule

namespace Filter

/-- The filter that keeps nothing. -/
def off : Filter := ⟨[]⟩

/-- The filter that keeps all lines down to a level. -/
def downTo (lowest : Level) : Filter := ⟨[⟨"", some lowest⟩]⟩

/-- The rule that decides between two. -/
def prefer (best : Option FilterRule) (rule : FilterRule) : Option FilterRule :=
  match best with
  | none => some rule
  | some former => if former.target.length ≤ rule.target.length then some rule else best

/-- Whether lines of a level and target are kept. -/
def admits (filter : Filter) (level : Level) (target : String) : Bool :=
  let fitting := filter.rules.filter fun rule => target.startsWith rule.target
  match fitting.foldl prefer none with
  | some ⟨_, some lowest⟩ => lowest.admits level
  | _ => false

/-- A level, or the name for no level at all. -/
def lowest? (text : String) : Option (Option Level) :=
  if text = "0" || String.ofList (text.toList.map Char.toLower) = "off" then some none
  else (Level.parse? text).map some

/-- Whether a text may name targets. -/
def isTarget (text : List Char) : Bool :=
  !text.isEmpty && text.all fun c => c.isAlphanum || c == '_' || c == ':' || c == '-'

/-- Reads one rule; a name without a level shows every level. -/
def rule? (text : String) : Option FilterRule :=
  match Text.splitFirst '=' text.toList with
  | some (target, level) =>
    if !isTarget target then none
    else if level.isEmpty then some ⟨String.ofList target, some .trace⟩
    else (lowest? (String.ofList level)).map fun lowest => ⟨String.ofList target, lowest⟩
  | none =>
    match lowest? text with
    | some lowest => some ⟨"", lowest⟩
    | none => if isTarget text.toList then some ⟨text, some .trace⟩ else none

/-- The rules of a text as they are written. -/
def pieces (text : String) : List String := (text.splitOn ",").filter fun piece => !piece.isEmpty

/-- Reads rules, passing over those that cannot be read; with none left, lines are shown down to
the level `info`. -/
def parse (text : String) : Filter :=
  let rules := (pieces text).filterMap rule?
  if rules.isEmpty then downTo .info else ⟨rules⟩

/-- The complaints about rules that cannot be read, a line for each. -/
def complaints (text : String) : String :=
  String.join (((pieces text).filter fun piece => (rule? piece).isNone).map fun piece =>
    "ignoring \x60" ++ piece ++ "\x60: invalid filter directive\n")

end Filter

end Rally
