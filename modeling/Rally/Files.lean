import Rally.Topology.Schema
/-!
# Files

A tree of files stands for a working directory: each file has a path from it and its octets. A path
to read may go through directories and back; the errors are those of reading a file as text.
-/

namespace Rally

/-- Why a file cannot be read as text. -/
inductive FileError where
  /-- There is nothing of that name. -/
  | missing
  /-- A file stands where the path needs a directory. -/
  | notDirectory
  /-- The path leads to a directory. -/
  | isDirectory
  /-- A name is longer than file systems allow. -/
  | nameTooLong
  /-- A name contains a character that ends names. -/
  | nulByte
  /-- The octets are no text. -/
  | notText
  deriving DecidableEq

/-- The wording of a file error. -/
def FileError.message : FileError → String
  | .missing => "No such file or directory (os error 2)"
  | .notDirectory => "Not a directory (os error 20)"
  | .isDirectory => "Is a directory (os error 21)"
  | .nameTooLong => "File name too long (os error 36)"
  | .nulByte => "file name contained an unexpected NUL byte"
  | .notText => "stream did not contain valid UTF-8"

/-- The files of a working directory. -/
structure FileTree where
  /-- The names that lead to each file, and its octets. -/
  files : List (List String × ByteArray)

namespace FileTree

/-- What a path leads to. -/
inductive Entry where
  | file (octets : ByteArray)
  | directory
  | nothing

/-- What stands at a place, of which the names lead from the working directory. -/
def entry (tree : FileTree) (place : List String) : Entry :=
  match tree.files.lookup place with
  | some octets => .file octets
  | none =>
    if place.isEmpty || tree.files.any (fun (names, _) => place.isPrefixOf names) then .directory
    else .nothing

/-- The names of a path. -/
def names (path : String) : List String := path.splitOn "/"

/-- Follows names from a place that is a directory. -/
def walk (tree : FileTree) (place : List String) : List String → Except FileError ByteArray
  | [] =>
    match tree.entry place with
    | .file octets => .ok octets
    | .directory => .error .isDirectory
    | .nothing => .error .missing
  | name :: rest =>
    match tree.entry place with
    | .nothing => .error .missing
    | .file _ => .error .notDirectory
    | .directory =>
      if name = "" || name = "." then walk tree place rest
      else if name = ".." then walk tree place.dropLast rest
      else if 255 < name.utf8ByteSize then .error .nameTooLong
      else walk tree (place ++ [name]) rest

/-- Reads the octets at a path from the working directory, outside of which there is nothing. -/
def octets (tree : FileTree) (path : String) : Except FileError ByteArray :=
  if path = "" then .error .missing
  else if path.toList.contains '\x00' then .error .nulByte
  else if path.startsWith "/" then
    if (names path).all fun name => name = "" || name = "." || name = ".." then .error .isDirectory
    else .error .missing
  else tree.walk [] (names path)

end FileTree

/-- The text of octets. -/
def FileError.textOf (octets : ByteArray) : Except FileError String :=
  match String.fromUTF8? octets with
  | some text => .ok text
  | none => .error .notText

/-- Reads a topology from a file, given a way to read octets. -/
def Topology.ofFile (read : String → Except FileError ByteArray) (path : String) :
    Except ConfigError Topology :=
  match (read path).bind FileError.textOf with
  | .ok text => Topology.ofYaml text
  | .error problem => .error (.missingFile (path ++ ": " ++ problem.message))

end Rally
