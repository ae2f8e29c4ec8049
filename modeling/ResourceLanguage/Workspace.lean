import ResourceLanguage.Path

/-!
A tree of directories and files with a current directory, and the ways in which looking at it can
fail. There are no links, so every entry has one place.
-/

namespace ResourceLanguage

inductive IoError where
  | notFound
  | notADirectory
  | isADirectory
  | invalidText
  deriving DecidableEq, Repr

def IoError.message : IoError → String
  | .notFound => "No such file or directory (os error 2)"
  | .notADirectory => "Not a directory (os error 20)"
  | .isADirectory => "Is a directory (os error 21)"
  | .invalidText => "stream did not contain valid UTF-8"

/-- The place of an entry: the names from the root down to it. -/
abbrev Place := List String

inductive Entry where
  | directory
  | file (content : List UInt8)
  deriving DecidableEq, Repr

def Entry.isDirectory : Entry → Bool
  | .directory => true
  | .file _ => false

def Entry.isFile (entry : Entry) : Bool := !entry.isDirectory

/-- The entries below the root by their places, and the current directory. -/
structure Workspace where
  entries : List (Place × Entry)
  current : Place
  deriving DecidableEq, Repr

namespace Workspace

/-- The entry at a place. The root is a directory. -/
def entry? (files : Workspace) (place : Place) : Option Entry :=
  if place.isEmpty then some .directory
  else (files.entries.find? (·.1 == place)).map (·.2)

def hasDirectory (files : Workspace) (place : Place) : Bool :=
  (files.entry? place).any Entry.isDirectory

/-- Follows the pieces of a path from a place. Only directories have something below them, even
if that is nothing but a `.`. -/
def follow (files : Workspace) (place : Place) : List (List Char) → Except IoError Place
  | [] => .ok place
  | piece :: pieces =>
      if files.hasDirectory place then
        if piece = [] ∨ piece = ['.'] then files.follow place pieces
        else if piece = ['.', '.'] then files.follow place.dropLast pieces
        else
          let next := place ++ [String.ofList piece]
          if (files.entry? next).isSome then files.follow next pieces else .error .notFound
      else .error .notADirectory

def start (files : Workspace) (path : Path) : Place := if path.isAbsolute then [] else files.current

def resolve (files : Workspace) (path : Path) : Except IoError Place :=
  if path.isEmpty then .error .notFound
  else files.follow (files.start path) (Path.pieces path.toList)

def find? (files : Workspace) (path : Path) : Option Entry :=
  match files.resolve path with
  | .ok place => files.entry? place
  | .error _ => none

def pathExists (files : Workspace) (path : Path) : Bool := (files.find? path).isSome

def isDirectory (files : Workspace) (path : Path) : Bool :=
  (files.find? path).any Entry.isDirectory

def isFile (files : Workspace) (path : Path) : Bool := (files.find? path).any Entry.isFile

def read (files : Workspace) (path : Path) : Except IoError (List UInt8) := do
  let place ← files.resolve path
  match files.entry? place with
  | some (.file content) => .ok content
  | some .directory => .error .isADirectory
  | none => .error .notFound

def readText (files : Workspace) (path : Path) : Except IoError String := do
  let content ← files.read path
  match String.fromUTF8? content.toByteArray with
  | some text => .ok text
  | none => .error .invalidText

def put (files : Workspace) (place : Place) (entry : Entry) : Workspace :=
  if files.entries.any (·.1 == place) then
    { files with
      entries := files.entries.map fun (other, old) =>
        if other = place then (other, entry) else (other, old) }
  else { files with entries := files.entries ++ [(place, entry)] }

/-- The place that a file to be written gets: that of an existing file, or a new name in an
existing directory. -/
def destination (files : Workspace) (path : Path) : Except IoError Place :=
  match files.resolve path with
  | .ok place => if files.hasDirectory place then .error .isADirectory else .ok place
  | .error error => do
      let pieces := Path.pieces path.toList
      let directory ← files.follow (files.start path) pieces.dropLast
      match pieces.getLast? with
      | some (c :: cs) =>
          if error = .notFound ∧ files.hasDirectory directory then
            .ok (directory ++ [String.ofList (c :: cs)])
          else .error error
      | _ => .error error

def write (files : Workspace) (path : Path) (content : List UInt8) :
    Except IoError Workspace := do
  let place ← files.destination path
  return files.put place (.file content)

def writeText (files : Workspace) (path : Path) (text : String) : Except IoError Workspace :=
  files.write path text.toUTF8.data.toList

/-- All entries below a place, by the names that lead from it to them. -/
def below (files : Workspace) (place : Place) : List (Place × Entry) :=
  files.entries.filterMap fun (other, entry) =>
    if place.isPrefixOf other && other ≠ place then some (other.drop place.length, entry) else none

/-- The names in a directory, each with its entry. -/
def list (files : Workspace) (path : Path) : Except IoError (List (String × Entry)) := do
  let place ← files.resolve path
  if files.hasDirectory place then
    return (files.below place).filterMap fun (names, entry) =>
      match names with
      | [name] => some (name, entry)
      | _ => none
  else .error .notADirectory

/-- All that a path leads to: the entry itself and all entries below it. -/
def walk (files : Workspace) (path : Path) : Except IoError (List (Path × Entry)) := do
  let place ← files.resolve path
  let top := (files.entry? place).toList.map fun entry => (path, entry)
  return top ++ (files.below place).map fun (names, entry) => (names.foldl Path.join path, entry)

/-- Makes a directory at a place, with all directories above it. -/
def makeDirectory (files : Workspace) (place : Place) : Workspace :=
  (List.range place.length).foldl
    (fun files depth =>
      let above := place.take (depth + 1)
      if (files.entry? above).isSome then files else files.put above .directory)
    files

/-- Removes the entry at a place with all that is below it. -/
def remove (files : Workspace) (place : Place) : Workspace :=
  { files with entries := files.entries.filter fun (other, _) => !place.isPrefixOf other }

end Workspace

end ResourceLanguage
