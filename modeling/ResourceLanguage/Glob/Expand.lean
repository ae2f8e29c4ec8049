import ResourceLanguage.Glob.Match
import ResourceLanguage.Workspace

/-!
Finding the paths that match a pattern, component by component.
-/

namespace ResourceLanguage.Glob

def isCurrent (path : Path) : Bool := path.components == [.current]

/-- The path of an entry in a directory. Entries of the current directory are called by their
names. -/
def childPath (directory : Path) (name : String) : Path :=
  if isCurrent directory then name else directory.join name

def descendantPath (directory : Path) : Place → Path
  | [] => directory
  | name :: names => names.foldl Path.join (childPath directory name)

/-- The entries below a directory, each with its path. -/
def descendants (files : Workspace) (directory : Path) : List (Path × Place × Entry) :=
  match files.resolve directory with
  | .ok place =>
      (files.below place).map fun (names, entry) => (descendantPath directory names, names, entry)
  | .error _ => []

/-- Paths to the directory itself and to its parent that match a pattern. Only patterns with a
dot in front match them. -/
def specialPaths (directory : Path) (pattern : Pattern) : List Path :=
  if pattern.head? = some (.char '.') then
    ([".", ".."].filter pattern.isMatch).map directory.join
  else []

theorem length_lt_of_dropWhile {α : Type} {p : α → Bool} {xs : List α} {y : α} {ys : List α}
    (h : xs.dropWhile p = y :: ys) : ys.length < xs.length := by
  have hsuffix : (y :: ys) <:+ xs := h ▸ List.dropWhile_suffix p
  exact hsuffix.length_le

/-- The paths from a path on that match some components. A component without wildcards is looked
up. One that stands for any number of components reaches all entries below; at the end of a
pattern it reaches directories only. -/
def matchingPaths (files : Workspace) : List Pattern → Path → List Path
  | [], path => [path]
  | pattern :: rest, path =>
      match pattern.literal? with
      | some name =>
          let next := childPath path name
          let leads :=
            if name = "." ∨ name = ".." then files.isDirectory path else files.pathExists next
          if leads then matchingPaths files rest next else []
      | none =>
          if !files.isDirectory path then []
          else if pattern.isRecursive then
            match _h : rest.dropWhile Pattern.isRecursive with
            | [] =>
                (descendants files path).filterMap fun (found, _, entry) =>
                  if entry.isDirectory then some found else none
            | next :: more =>
                (descendants files path).flatMap fun (found, names, _) =>
                  if names.getLast?.any next.isMatch then matchingPaths files more found else []
          else
            let children := (descendants files path).filterMap fun (found, names, _) =>
              match names with
              | [name] => if pattern.isMatch name then some found else none
              | _ => none
            (children ++ specialPaths path pattern).flatMap (matchingPaths files rest)
termination_by patterns => patterns.length
decreasing_by
  · simp
  · have := length_lt_of_dropWhile _h
    simp only [List.length_cons]
    omega
  · simp

/-- The components of a pattern between slashes. A slash at the end adds none. -/
def componentTexts (text : List Char) : List (List Char) :=
  let pieces := Path.pieces text
  if pieces.getLast? = some [] then pieces.dropLast else pieces

/-- The paths that match a pattern. -/
def expand (files : Workspace) (text : String) : Except PatternError (List Path) := do
  let _ ← Pattern.parse text
  let (scope, relative) :=
    match text.toList with
    | '/' :: relative => ("/", relative)
    | relative => (".", relative)
  let components ← (componentTexts relative).mapM fun component =>
    Pattern.parse (String.ofList component)
  return matchingPaths files components scope

end ResourceLanguage.Glob
