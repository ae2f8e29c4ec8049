import ResourceLanguage.Fix.Restore
import ResourceLanguage.Glob.Expand
import ResourceLanguage.Notice
import ResourceLanguage.Text.Basic

/-!
Finding the source files and resource files of a project.
-/

namespace ResourceLanguage

open ResourceLanguage.Glob ResourceLanguage.Text

/-- What to pass over: everything under some paths, and what matches some patterns. -/
structure Exclusion where
  paths : List Path
  patterns : List Pattern
  deriving DecidableEq, Repr

namespace Exclusion

/-- The exclusion that some entries of a configuration ask for. Entries with wildcards are
patterns; all others are paths from the base directory. -/
def ofEntries (base : Path) (entries : List String) : Exclusion where
  paths := (entries.filter (!isPattern ·)).map base.join
  patterns := (entries.filter isPattern).filterMap fun text => (Pattern.parse text).toOption

/-- Remarks on entries that are not valid patterns. -/
def notices (entries : List String) : List Notice :=
  (entries.filter isPattern).filterMap fun text =>
    match Pattern.parse text with
    | .ok _ => none
    | .error error => some (.invalidIgnore text error)

def excludes (exclusion : Exclusion) (path : Path) : Bool :=
  exclusion.paths.any path.startsWith || exclusion.patterns.any (·.isMatch path)

end Exclusion

structure Scan where
  sourceFiles : List Path
  resourceFiles : List Path
  /-- How many paths could not be looked at. -/
  skipped : Nat
  /-- Remarks for those who want to know more. -/
  notices : List Notice
  deriving DecidableEq, Repr

namespace Scan

/-- Where an included entry leads to: the directories that match it if it has wildcards, and else
the path itself. -/
def startsOf (files : Workspace) (base : Path) (entry : String) : List Path × List Notice :=
  if isPattern entry then
    match expand files (base.join entry) with
    | .ok paths => (paths.filter files.isDirectory, [])
    | .error error => ([], [.invalidInclude entry error])
  else
    let path := base.join entry
    if files.pathExists path then ([path], []) else ([], [.missingInclude path])

/-- The paths at which to start. Without any included entry this is the base directory. -/
def starts (files : Workspace) (base : Path) (includes : List String) :
    List Path × List Notice :=
  if includes.isEmpty then ([base], [])
  else
    let found := includes.map (startsOf files base)
    (found.flatMap (·.1), found.flatMap (·.2))

/-- Whether a found entry is a file with the given extension that is not excluded. -/
def selects (exclusion : Exclusion) (extension : String) (found : Path × Entry) : Bool :=
  !exclusion.excludes found.1 && found.2.isFile && found.1.extension? == some extension

/-- The files with the given extension among those found. -/
def select (exclusion : Exclusion) (extension : String) (found : List (Path × Entry)) :
    List Path :=
  sortedSet ((found.filter (selects exclusion extension)).map (·.1))

def ofDirectory (files : Workspace) (base : Path) (includes ignores : List String) : Scan :=
  let exclusion := Exclusion.ofEntries base ignores
  let (starts, startNotices) := starts files base includes
  let walks := starts.map fun path => (path, files.walk path)
  let found := walks.flatMap fun (_, walk) => walk.toOption.getD []
  let inaccessible := walks.filterMap fun (path, walk) =>
    match walk with
    | .ok _ => none
    | .error error => some (Notice.inaccessible path error)
  { sourceFiles := select exclusion sourceExtension found
    resourceFiles := select exclusion resourceExtension found
    skipped := inaccessible.length
    notices := Exclusion.notices ignores ++ startNotices ++ inaccessible }

end Scan

end ResourceLanguage
