import Rally.Log.Filter
import Rally.Time.Instant
/-!
# Log lines

A line shows the simulated time, the level, the component whose hook wrote it, the target and the
message. On a terminal each part has a style of its own.
-/

namespace Rally

/-- Something worth a log line. The message is kept in pieces, which are joined when it is shown. -/
structure Note where
  /-- How much it matters. -/
  level : Level
  /-- The part of the program that it comes from. -/
  target : String
  /-- The pieces of the message. -/
  message : List String
  /-- Values behind the message, under names. -/
  fields : List (String × String) := []

/-- The component whose hook writes log lines. -/
structure Scope where
  /-- The name of the component. -/
  name : String
  /-- The rank it is placed on. -/
  rank : Nat

/-- A log line before it is laid out. -/
structure Record where
  /-- The simulated time. -/
  time : Instant
  /-- The component it comes from, if it is shown. -/
  scope : Option Scope
  /-- What happened. -/
  note : Note

namespace Record

/-- The escape sequence of a style. -/
def style (code : String) : String := "\x1b[" ++ code ++ "m"

/-- A text in a style, where styles are shown. -/
def paint (ansi : Bool) (code text : String) : String :=
  if ansi then style code ++ text ++ style "0" else text

/-- A value under a name. -/
def fieldText (ansi : Bool) (name value : String) : String :=
  paint ansi "3" name ++ paint ansi "2" "=" ++ value

/-- The component of a line between braces. -/
def scopeText (ansi : Bool) (scope : Scope) : String :=
  paint ansi "1" "component" ++ paint ansi "1" "\x7b" ++ fieldText ansi "name" scope.name ++ " " ++
    fieldText ansi "rank" (toString scope.rank) ++ paint ansi "1" "\x7d" ++ paint ansi "2" ":" ++
    " "

/-- The layout of a line. -/
def line (ansi : Bool) (record : Record) : String :=
  paint ansi "2" ("[ " ++ record.time.label ++ " ] ") ++
    paint ansi (toString record.note.level.colour) (record.note.level.label ++ " ") ++
    (record.scope.map (scopeText ansi)).getD "" ++
    paint ansi "2" (record.note.target ++ ": ") ++ String.join record.note.message ++
    String.join (record.note.fields.map fun (name, value) => " " ++ fieldText ansi name value)

end Record

/-- The log lines kept so far. -/
structure Journal where
  /-- Which lines are kept. -/
  filter : Filter
  /-- The lines in order. -/
  records : Array Record := #[]

namespace Journal

/-- Keeps a note of a component, or of none, if the filter admits it. The component is shown only
where the filter admits lines of level `info` for the target that opened its scope. -/
def add (journal : Journal) (time : Instant) (scope : Option (String × Scope)) (note : Note) :
    Journal :=
  if journal.filter.admits note.level note.target then
    let shown := scope.bind fun (target, scope) =>
      if journal.filter.admits .info target then some scope else none
    { journal with records := journal.records.push ⟨time, shown, note⟩ }
  else journal

/-- Keeps several notes. -/
def addAll (journal : Journal) (time : Instant) (scope : Option (String × Scope))
    (notes : List Note) : Journal :=
  notes.foldl (fun journal note => journal.add time scope note) journal

end Journal

end Rally
