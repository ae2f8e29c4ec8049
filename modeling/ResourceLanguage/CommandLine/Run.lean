import ResourceLanguage.CSharp.Parser
import ResourceLanguage.CommandLine.Arguments
import ResourceLanguage.CommandLine.Help
import ResourceLanguage.Fix.Session

/-!
The commands: checking a project, fixing it, and writing a first configuration.
-/

namespace ResourceLanguage.CommandLine

open ResourceLanguage.CSharp ResourceLanguage.Text

inductive ExitStatus where
  /-- Nothing is wrong, or all was fixed. -/
  | success
  /-- There are issues, or changes that a dry run would make. -/
  | failure
  /-- The work could not be done. -/
  | error
  deriving DecidableEq, Repr

def ExitStatus.code : ExitStatus → Nat
  | .success => 0
  | .failure => 1
  | .error => 2

inductive CommandError where
  | work (cause : Failure)
  | fix (error : FixError)
  deriving DecidableEq, Repr

def CommandError.message : CommandError → String
  | .work cause => cause.message
  | .fix error => error.message

/-- What a command leaves behind: its result, the files, and what it printed as results and as
remarks. -/
structure CommandResult where
  result : Except CommandError ExitStatus
  files : Workspace
  out : String := ""
  err : String := ""

def renderNotices (palette : Palette) (notices : List Notice) : String :=
  String.join (notices.map (Notice.render palette))

/-- Begins work on a project, and goes on with it. -/
def withSession (files : Workspace) (palette : Palette) (options : Options)
    (work : Session → CommandResult) : CommandResult :=
  match Session.start files options.sourceRoot options.verbose with
  | (.error failure, notices) =>
      { result := .error (.work failure), files, err := renderNotices palette notices }
  | (.ok session, notices) => work { session with notices := notices ++ session.notices }

def finish (palette : Palette) (session : Session) (result : Except CommandError ExitStatus)
    (out err : String) : CommandResult :=
  { result, files := session.files, out, err := renderNotices palette session.notices ++ err }

def runCheck [Grammar] (files : Workspace) (palette : Palette) (options : Options) :
    CommandResult :=
  withSession files palette options fun session =>
    match session.issues with
    | (.error cause, session) => finish palette session (.error (.work (.cancelled cause))) "" ""
    | (.ok found, session) =>
        let (sources, session) := session.sources
        let issues := found.map .languageOverride ++ sources.unreadable.map Issue.unreadableFile
        let project := session.project
        let out :=
          if issues.isEmpty then
            Report.success palette project.sourceFiles.length project.resourceFiles.length
          else Report.render palette issues
        let status :=
          if issues.any (·.severity == .error) then ExitStatus.failure else .success
        finish palette session (.ok status) out
          (Report.unreadableWarning palette sources.unreadable.length options.verbose)

def inDocument (files : Workspace) (document : Path) (issues : List LanguageOverride) :
    Except Failure (List LanguageOverride) :=
  match files.resolve document with
  | .error error => .error (.missingDocument document error)
  | .ok place =>
      .ok (issues.filter fun issue =>
        match files.resolve issue.location.file with
        | .ok other => other = place
        | .error _ => false)

/-- A line of a diff in the colour of its sort. -/
def paintDiffLine (palette : Palette) (line : String) : String :=
  match line.toList with
  | '+' :: '+' :: '+' :: _ => palette.paint [.bold] line
  | '-' :: '-' :: '-' :: _ => palette.paint [.bold] line
  | '+' :: _ => palette.paint [.green] line
  | '-' :: _ => palette.paint [.red] line
  | '@' :: '@' :: _ => palette.paint [.cyan] line
  | _ => line

def renderPlan (palette : Palette) (plan : Plan) : String :=
  textOf ((textLines plan.renderDiff).map (paintDiffLine palette)) ++ "\n"

def nothingToFix (palette : Palette) (issueCount : Nat) : String :=
  palette.paint [.red] failureMark ++ " " ++ toString issueCount ++
    " issue(s) found, but no companion resource file needs changes.\n"

def skippedLine (skipped : Nat) : String :=
  if skipped > 0 then
    "  - skipped: " ++ toString skipped ++ " issue(s) without a resolvable type declaration\n"
  else ""

def commitReport (palette : Palette) (issueCount : Nat) (stats : FixStats) : String :=
  (if stats.filesModified > 0 then
    palette.paint [.bold, .green] "Restored" ++ " the default language in " ++
      toString stats.filesModified ++ " resource file(s) (processed " ++
      toString stats.processed ++ " issue(s)).\n"
   else nothingToFix palette issueCount) ++
    skippedLine stats.skipped ++
    (if stats.failed > 0 then
      palette.paint [.red] failureMark ++ " " ++ toString stats.failed ++ " fix(es) failed\n"
     else "")

def previewReport (palette : Palette) (issueCount : Nat) (preview : Batch.Preview) : String :=
  String.join (preview.plans.map (renderPlan palette)) ++
    (if preview.plans.isEmpty then nothingToFix palette issueCount
     else
      palette.paint [.bold, .yellow] "Would restore" ++ " the default language in " ++
        toString preview.plans.length ++ " resource file(s).\n" ++
        "Run with " ++ palette.paint [.cyan] "--apply" ++ " to rewrite these files.\n") ++
    skippedLine preview.stats.skipped

/-- The status of a fix: files that cannot be read and fixes that failed are errors, and changes
that are only shown are a failure. -/
def fixStatus (errors : Nat) (isPending : Bool) : ExitStatus :=
  if errors > 0 then .error else if isPending then .failure else .success

def fixIssues [Grammar] (palette : Palette) (options : Options) (issues : List LanguageOverride)
    (session : Session) : CommandResult :=
  let (sources, session) := session.sources
  let unreadable := sources.unreadable.length
  let warning := Report.unreadableWarning palette unreadable options.verbose
  if issues.isEmpty then
    let project := session.project
    finish palette session (.ok (fixStatus unreadable false))
      (Report.success palette project.sourceFiles.length project.resourceFiles.length) warning
  else if options.apply then
    match session.commit issues with
    | (.error error, session) => finish palette session (.error (.fix error)) "" ""
    | (.ok stats, session) =>
        finish palette session (.ok (fixStatus (unreadable + stats.failed) false))
          (commitReport palette issues.length stats) warning
  else
    match session.preview issues with
    | (.error error, session) => finish palette session (.error (.fix error)) "" ""
    | (.ok preview, session) =>
        finish palette session (.ok (fixStatus unreadable !preview.plans.isEmpty))
          (previewReport palette issues.length preview) warning

/-- Fixes a project, or shows how. -/
def runFix [Grammar] (files : Workspace) (palette : Palette) (options : Options) : CommandResult :=
  withSession files palette options fun session =>
    match session.issues with
    | (.error cause, session) => finish palette session (.error (.work (.cancelled cause))) "" ""
    | (.ok found, session) =>
        match options.document with
        | none => fixIssues palette options found session
        | some document =>
            match inDocument session.files document found with
            | .error failure => finish palette session (.error (.work failure)) "" ""
            | .ok issues => fixIssues palette options issues session

/-- Writes the default configuration into the current directory, unless it has one. -/
def runInit (files : Workspace) (palette : Palette) : CommandResult :=
  let path := Path.join "." Config.fileName
  if files.pathExists path then
    { result := .ok .failure, files, err := "Error: " ++ Config.fileName ++ " already exists\n" }
  else
    match files.writeText path (Config.render {}) with
    | .error error => { result := .error (.work (.unwritableConfig path error)), files }
    | .ok files =>
        { result := .ok .success
          files
          out := palette.paint [.green] successMark ++ " " ++
            palette.paint [.green] ("Created " ++ Config.fileName) ++ "\n" }

def Command.run [Grammar] (command : Command) (files : Workspace) (palette : Palette) :
    CommandResult :=
  match command with
  | .check options => runCheck files palette options
  | .fix options => runFix files palette options
  | .init => runInit files palette

end ResourceLanguage.CommandLine
