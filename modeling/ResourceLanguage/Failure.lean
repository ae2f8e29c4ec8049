import ResourceLanguage.Cancellation
import ResourceLanguage.Glob.Pattern
import ResourceLanguage.Json.Lexical
import ResourceLanguage.Text.Quoted
import ResourceLanguage.Workspace

/-!
The reasons for which work on a project fails.
-/

namespace ResourceLanguage

open ResourceLanguage.Glob ResourceLanguage.Text

inductive Failure where
  | unreadableConfig (path : Path) (error : IoError)
  | malformedConfig (path : Path) (fault : Json.Fault)
  | invalidIgnore (pattern : String) (error : PatternError)
  | invalidInclude (pattern : String) (error : PatternError)
  | emptySuffix
  | missingSourceRoot (path : Path)
  | unreadableDirectory (path : Path) (error : IoError)
  | unreadableResource (path : Path) (error : IoError)
  | unwritableResource (path : Path) (error : IoError)
  | unparsedSource (file : Path)
  | noDeclaration (file : Path) (line col : Nat)
  | missingDocument (path : Path) (error : IoError)
  | unwritableConfig (path : Path) (error : IoError)
  | cancelled (cause : Cancelled)
  /-- Any other reason, the outermost first. -/
  | other (causes : List String)
  deriving DecidableEq, Repr

namespace Failure

/-- A failure with its causes, the outermost first. The fault of a configuration is left to the
reader's eyes. -/
def message : Failure → String
  | .unreadableConfig path error =>
      "Failed to read config file: " ++ quotedPath path ++ ": " ++ error.message
  | .malformedConfig path _ => "Failed to parse config file: " ++ quotedPath path
  | .invalidIgnore pattern error =>
      "Invalid glob pattern in 'ignores': \"" ++ pattern ++ "\": " ++ error.message
  | .invalidInclude pattern error =>
      "Invalid glob pattern in 'includes': \"" ++ pattern ++ "\": " ++ error.message
  | .emptySuffix => "Empty entry in 'ignoreFileSuffixes'"
  | .missingSourceRoot path => "Source root does not exist: " ++ path
  | .unreadableDirectory path error =>
      "Failed to read directory: " ++ path ++ ": " ++ error.message
  | .unreadableResource path error =>
      "Failed to read resource file: " ++ path ++ ": " ++ error.message
  | .unwritableResource path error =>
      "Failed to write resource file: " ++ path ++ ": " ++ error.message
  | .unparsedSource file => "Source file was not parsed: " ++ file
  | .noDeclaration file line col =>
      "No type declaration found at " ++ file ++ ":" ++ toString line ++ ":" ++ toString col
  | .missingDocument path error => "Document not found: " ++ path ++ ": " ++ error.message
  | .unwritableConfig path error => "Failed to write " ++ path ++ ": " ++ error.message
  | .cancelled cause => cause.message
  | .other causes => ": ".intercalate causes

end Failure

end ResourceLanguage
