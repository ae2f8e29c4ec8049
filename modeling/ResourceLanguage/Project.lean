import ResourceLanguage.Analysis
import ResourceLanguage.Config.Discovery
import ResourceLanguage.Scan
import ResourceLanguage.Text.Encoding

/-!
A project: its configuration, its files, and what is read from them.
-/

namespace ResourceLanguage

open ResourceLanguage.CSharp ResourceLanguage.Text

/-- The source files that could be read, and those that could not. -/
structure Sources where
  files : List SourceFile
  unreadable : List UnreadableFile
  deriving DecidableEq, Repr

namespace Sources

def readSource (files : Workspace) (path : Path) : Except UnreadableFile String :=
  match files.read path with
  | .error error => .error { file := path, error := "Failed to read file: " ++ error.message }
  | .ok content =>
      match decodeStrict content with
      | .ok text => .ok text
      | .error encoding =>
          .error { file := path, error := "File is not valid " ++ encoding.name }

/-- Reads and parses source files under some conditional compilation symbols. -/
def ofPaths [Grammar] (files : Workspace) (symbols : Symbols) (paths : List Path) : Sources :=
  let readings := paths.map fun path => (path, readSource files path)
  { files := readings.filterMap fun (path, reading) =>
      reading.toOption.map fun text => SourceFile.parse path text symbols
    unreadable := readings.filterMap fun (_, reading) =>
      match reading with
      | .ok _ => none
      | .error found => some found }

def types (sources : Sources) : List NamedType := NamedType.ofFiles sources.files

end Sources

/-- Reads resource files. Those that cannot be read are passed over. -/
def readResources (files : Workspace) (paths : List Path) : List Resource :=
  paths.filterMap fun path =>
    (files.read path).toOption.map fun content => { path, text := decodeLossy content }

def resourceNotices (files : Workspace) (paths : List Path) : List Notice :=
  paths.filterMap fun path =>
    match files.read path with
    | .ok _ => none
    | .error error => some (.unreadableResource path error)

/-- The issues of some types, in the order of their places. -/
def Analysis.issues (analysis : Analysis) (types : List NamedType) (cancellation : Cancellation) :
    Except Cancelled (List LanguageOverride × Cancellation) := do
  let (found, cancellation) ← analysis.checkAll types cancellation
  return (found.flatten.mergeSort fun a b => a.location.le b.location, cancellation)

/-- A project whose files have been listed. Their contents are read when they are first needed,
and kept. -/
structure Project where
  config : Config
  root : Path
  sourceFiles : List Path
  resourceFiles : List Path
  verbose : Bool
  cancellation : Cancellation := .never
  sources : Option Sources := none
  resources : Option (List Resource) := none
  deriving DecidableEq, Repr

namespace Project

def filter (project : Project) : IgnoreFilter :=
  IgnoreFilter.ofSuffixes project.config.ignoreFileSuffixes

def whenVerbose (verbose : Bool) (notices : List Notice) : List Notice :=
  if verbose then notices else []

/-- Lists the files of a project. The source root is that of the configuration unless one is
given. -/
def ofConfig (files : Workspace) (config : Config) (sourceRoot : Option Path) (verbose : Bool) :
    Except Failure (Project × List Notice) :=
  let root := sourceRoot.getD config.sourceRoot
  if files.isDirectory root then
    let scan := Scan.ofDirectory files root config.includes config.ignores
    let skipped := if scan.skipped > 0 then [Notice.skippedPaths scan.skipped verbose] else []
    .ok ({ config, root, sourceFiles := scan.sourceFiles, resourceFiles := scan.resourceFiles,
           verbose }, whenVerbose verbose scan.notices ++ skipped)
  else .error (.missingSourceRoot root)

end Project

/-- Work on a project: its files, what is known of it, and the remarks made so far. -/
structure Session where
  files : Workspace
  project : Project
  notices : List Notice := []
  deriving DecidableEq, Repr

namespace Session

def start (files : Workspace) (sourceRoot : Option Path) (verbose : Bool) :
    Except Failure Session × List Notice :=
  match Config.load files (sourceRoot.getD ".") with
  | .error failure => (.error failure, [])
  | .ok loaded =>
      let notices :=
        if loaded.fromFile then [] else Project.whenVerbose verbose [.defaultConfiguration]
      match Project.ofConfig files loaded.config sourceRoot verbose with
      | .error failure => (.error failure, notices)
      | .ok (project, more) => (.ok { files, project }, notices ++ more)

def world (session : Session) : World :=
  { files := session.files, cancellation := session.project.cancellation }

def setWorld (session : Session) (world : World) : Session :=
  { session with
    files := world.files
    project := { session.project with cancellation := world.cancellation } }

def setCancellation (session : Session) (cancellation : Cancellation) : Session :=
  { session with project := { session.project with cancellation } }

def note (session : Session) (notices : List Notice) : Session :=
  { session with notices := session.notices ++ notices }

def noteVerbose (session : Session) (notices : List Notice) : Session :=
  session.note (Project.whenVerbose session.project.verbose notices)

def sources [Grammar] (session : Session) : Sources × Session :=
  match session.project.sources with
  | some sources => (sources, session)
  | none =>
      let project := session.project
      let sources :=
        Sources.ofPaths session.files project.config.preprocessorSymbols project.sourceFiles
      let session := { session with project := { project with sources := some sources } }
      (sources, session.noteVerbose (sources.unreadable.map .unreadableSource))

def resources (session : Session) : List Resource × Session :=
  match session.project.resources with
  | some resources => (resources, session)
  | none =>
      let project := session.project
      let resources := readResources session.files project.resourceFiles
      let notices := resourceNotices session.files project.resourceFiles
      let session := { session with project := { project with resources := some resources } }
      (resources, session.noteVerbose notices)

/-- The issues of the project. Source files are only read when some resource file has the
marker. -/
def issues [Grammar] (session : Session) : Except Cancelled (List LanguageOverride) × Session :=
  let (resources, session) := session.resources
  match Analysis.ofResources session.project.filter resources session.project.cancellation with
  | .error cause => (.error cause, session)
  | .ok (analysis, cancellation) =>
      let session := session.setCancellation cancellation
      if analysis.markedNames.isEmpty then (.ok [], session)
      else
        let (sources, session) := session.sources
        match analysis.issues sources.types session.project.cancellation with
        | .error cause => (.error cause, session)
        | .ok (found, cancellation) => (.ok found, session.setCancellation cancellation)

end Session

end ResourceLanguage
