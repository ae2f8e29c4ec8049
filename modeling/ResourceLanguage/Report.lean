import ResourceLanguage.Issue
import ResourceLanguage.Text.Styled
import ResourceLanguage.Text.Width

/-!
Reports: issues with the source lines that they concern, in the order of their places.
-/

namespace ResourceLanguage

open ResourceLanguage.Text

def successMark : String := "✓"

def failureMark : String := "✘"

/-- A noun in the number that goes with a count. -/
def plural (count : Nat) (noun : String) : String := if count = 1 then noun else noun ++ "s"

namespace Report

def severityStyle : Severity → Style
  | .error => .red
  | .warning => .yellow

/-- The first line of an issue: how grave it is, its code, message and rule. -/
def heading (palette : Palette) (issue : Issue) : String :=
  let code := (issue.code?.map fun code => "[" ++ code ++ "]").getD ""
  palette.paint [.bold, severityStyle issue.severity] issue.severity.name ++
    palette.paint [.bold] code ++ ": " ++ issue.message ++ "  " ++
    palette.paint [.dimmed, .cyan] issue.ruleName ++ "\n"

/-- The source line of an issue, with a caret below its column. -/
def excerpt (palette : Palette) (width : Nat) (severity : Severity) (location : Location) :
    String :=
  let bar := palette.paint [.blue] "|"
  let before := location.sourceLine.toList.take (location.col - 1)
  padLeft width "" ++ " " ++ bar ++ "\n" ++
    palette.paint [.blue] (padLeft width (toString location.line)) ++ " " ++ bar ++ " " ++
      location.sourceLine ++ "\n" ++
    padLeft width "" ++ " " ++ bar ++ " " ++ padLeft (displayWidth before) "" ++
      palette.paint [severityStyle severity] "^" ++ "\n"

def place (palette : Palette) (width : Nat) (issue : Issue) : String :=
  let arrow := "  " ++ palette.paint [.blue] "-->" ++ " "
  match issue with
  | .languageOverride found =>
      arrow ++ found.location.file ++ ":" ++ toString found.location.line ++ ":" ++
        toString found.location.col ++ "\n" ++
        excerpt palette width issue.severity found.location
  | .unreadableFile found => arrow ++ found.file ++ "\n"

def hint (palette : Palette) (width : Nat) (issue : Issue) : String :=
  match issue.hint? with
  | some text =>
      padLeft width "" ++ " " ++ palette.paint [.blue] "=" ++ " " ++
        palette.paint [.bold, .cyan] "hint:" ++ " " ++ text ++ "\n"
  | none => ""

/-- An issue with everything that is shown of it. Line numbers take `width` columns. -/
def block (palette : Palette) (width : Nat) (issue : Issue) : String :=
  heading palette issue ++ place palette width issue ++ hint palette width issue ++ "\n"

def summary (palette : Palette) (issues : List Issue) : String :=
  let errors := issues.countP (·.severity == .error)
  let warnings := issues.countP (·.severity == .warning)
  let problems := errors + warnings
  if problems = 0 then ""
  else
    palette.paint [.red] failureMark ++ " " ++ toString problems ++ " " ++
      plural problems "problem" ++ " (" ++ toString errors ++ " " ++
      palette.paint [.red] (plural errors "error") ++ ", " ++ toString warnings ++ " " ++
      palette.paint [.yellow] (plural warnings "warning") ++ ")\n"

/-- The number of an issue's line in the source, if it has one. -/
def sourceLine? : Issue → Option Nat
  | .languageOverride found => some found.location.line
  | .unreadableFile _ => none

/-- The columns that the line numbers of all issues take. -/
def marginWidth (issues : List Issue) : Nat :=
  match issues.filterMap sourceLine? with
  | [] => 1
  | line :: lines => (toString (lines.foldl max line)).length

/-- The report on some issues. Of nothing there is no report. -/
def render (palette : Palette) (issues : List Issue) : String :=
  if issues.isEmpty then ""
  else
    let sorted := issues.mergeSort Issue.le
    let width := marginWidth sorted
    String.join (sorted.map (block palette width)) ++ summary palette sorted

def success (palette : Palette) (sourceFiles resourceFiles : Nat) : String :=
  let message := "Checked " ++ toString sourceFiles ++ " source " ++ plural sourceFiles "file" ++
    ", " ++ toString resourceFiles ++ " resource " ++ plural resourceFiles "file" ++
    " - no issues found"
  palette.paint [.green] successMark ++ " " ++ palette.paint [.green] message ++ "\n"

def warningLabel (palette : Palette) : String := palette.paint [.bold, .yellow] "warning:"

/-- A warning about source files that cannot be read. Verbose commands have named each. -/
def unreadableWarning (palette : Palette) (count : Nat) (verbose : Bool) : String :=
  if count > 0 && !verbose then
    warningLabel palette ++ " " ++ toString count ++ " file(s) could not be parsed (use " ++
      palette.paint [.cyan] "-v" ++ " for details)\n"
  else ""

end Report

end ResourceLanguage
