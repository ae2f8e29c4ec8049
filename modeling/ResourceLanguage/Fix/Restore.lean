import ResourceLanguage.CSharp.SourceFile
import ResourceLanguage.Fix.Deferred
import ResourceLanguage.Issue

/-!
Restoring the default language: the marker is removed from the resource file that stands beside
the declaration of a type and has the type's name.
-/

namespace ResourceLanguage

open ResourceLanguage.CSharp

def sourceExtension : String := "cs"

def resourceExtension : String := "resx"

/-- The resource file of a type in a directory. -/
def companion? (files : Workspace) (directory : Path) (typeName : String) :
    Except Failure (Option Path) := do
  let entries ← (files.list directory).mapError (.unreadableDirectory directory)
  let name := typeName ++ "." ++ resourceExtension
  return if entries.any fun (other, entry) => other = name ∧ entry.isFile then
    some (directory.join name)
  else none

def directoryOf (file : Path) : Path :=
  match file.parent? with
  | some parent => if parent.isEmpty then "." else parent
  | none => "."

/-- The plan that restores the default language of a type declared in the given file, if the type
has a resource file there. -/
def planRestore (files : Workspace) (declaringFile : Path) (typeName : String) :
    Except Failure (Option Plan) := do
  let some path ← companion? files (directoryOf declaringFile) typeName | return none
  let text ← (files.readText path).mapError (.unreadableResource path)
  return some (Plan.ofText path text)

/-- A fix that restores the default language of a type. -/
structure RestoreFix where
  declaringFile : Path
  typeName : String
  deriving DecidableEq, Repr

namespace RestoreFix

def title : String := "Restore the default language"

def fixableIds : List String := [Rule.defaultLanguage.id]

/-- Plans the change, and carries it out. -/
def compute (fix : RestoreFix) (mode : FixMode) (world : World) :
    Except Failure FixOutcome × World :=
  match world.cancellation.check with
  | .error cause => (.error (.cancelled cause), world)
  | .ok cancellation =>
      let world := { world with cancellation }
      let result := do
        let plan ← planRestore world.files fix.declaringFile fix.typeName
        applyPlan plan mode world.files
      match result with
      | .ok (outcome, files) => (.ok outcome, { world with files })
      | .error failure => (.error failure, world)

def toDeferred (fix : RestoreFix) : DeferredFix :=
  { title, equivalenceKey := some title, compute := fix.compute }

/-- Runs the fix, unless a request to cancel has arrived. -/
def run (fix : RestoreFix) (mode : FixMode) (world : World) :
    Except FixError FixOutcome × World :=
  fix.toDeferred.run mode world

/-- The fix for an issue in one of some parsed files: that of the type around the issue. -/
def ofIssue (sources : List SourceFile) (issue : LanguageOverride) : Except Failure RestoreFix :=
  let location := issue.location
  match sources.find? (·.path == location.file) with
  | none => .error (.unparsedSource location.file)
  | some source =>
      match source.enclosing? location.line location.col with
      | none => .error (.noDeclaration location.file location.line location.col)
      | some declaration =>
          .ok { declaringFile := declaration.location.file, typeName := declaration.identifier }

end RestoreFix

end ResourceLanguage
