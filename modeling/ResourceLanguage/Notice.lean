import ResourceLanguage.Config.Basic
import ResourceLanguage.Fix.Deferred
import ResourceLanguage.Issue
import ResourceLanguage.Report

/-!
Remarks on the way of work, printed beside its results.
-/

namespace ResourceLanguage

open ResourceLanguage.Glob ResourceLanguage.Text

inductive Notice where
  | defaultConfiguration
  | invalidIgnore (pattern : String) (error : PatternError)
  | invalidInclude (pattern : String) (error : PatternError)
  | missingInclude (path : Path)
  | inaccessible (path : Path) (error : IoError)
  /-- Paths that were passed over. Verbose work has named each. -/
  | skippedPaths (count : Nat) (verbose : Bool)
  | unreadableSource (found : UnreadableFile)
  | unreadableResource (path : Path) (error : IoError)
  | skippedIssue (reason : Failure)
  | failedFix (error : FixError)
  deriving DecidableEq, Repr

namespace Notice

def warning? : Notice → Option String
  | .defaultConfiguration => none
  | .invalidIgnore pattern error =>
      some ("Invalid ignore pattern '" ++ pattern ++ "': " ++ error.message)
  | .invalidInclude pattern error =>
      some ("Invalid glob pattern '" ++ pattern ++ "': " ++ error.message)
  | .missingInclude path => some ("Include path does not exist: " ++ path)
  | .inaccessible path error =>
      some ("Cannot access path: IO error for operation on " ++ path ++ ": " ++ error.message)
  | .skippedPaths count verbose =>
      some (toString count ++ " path(s) skipped due to access errors" ++
        (if verbose then "" else " (use -v for details)"))
  | .unreadableSource found => some (found.file ++ " - " ++ found.error)
  | .unreadableResource path error =>
      some ("Cannot read resource file " ++ path ++ ": " ++ error.message)
  | .skippedIssue reason => some reason.message
  | .failedFix error => some error.message

def render (palette : Palette) (notice : Notice) : String :=
  match notice.warning? with
  | some text => Report.warningLabel palette ++ " " ++ text ++ "\n"
  | none => "Note: No " ++ Config.fileName ++ " found, using default configuration\n"

end Notice

end ResourceLanguage
