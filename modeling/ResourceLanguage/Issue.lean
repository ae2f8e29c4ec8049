import ResourceLanguage.Location
import ResourceLanguage.Path
import ResourceLanguage.Rule

/-!
What an analysis reports: declarations of types whose resource file overrides the default
language, and source files that cannot be read.
-/

namespace ResourceLanguage

/-- A declaration of a type whose resource file overrides the default language. -/
structure LanguageOverride where
  location : Location
  typeName : String
  deriving DecidableEq, Repr

def LanguageOverride.message (found : LanguageOverride) : String :=
  formatMessage Rule.defaultLanguage.messageFormat [found.typeName]

/-- A source file that cannot be read, and why. -/
structure UnreadableFile where
  file : Path
  error : String
  deriving DecidableEq, Repr

inductive Issue where
  | languageOverride (found : LanguageOverride)
  | unreadableFile (found : UnreadableFile)
  deriving DecidableEq, Repr

namespace Issue

def severity : Issue → Severity
  | .languageOverride _ => Rule.defaultLanguage.severity
  | .unreadableFile _ => .error

def message : Issue → String
  | .languageOverride found => found.message
  | .unreadableFile found => found.error

def ruleName : Issue → String
  | .languageOverride _ => "default-language"
  | .unreadableFile _ => "parse-error"

def code? : Issue → Option String
  | .languageOverride _ => some Rule.defaultLanguage.id
  | .unreadableFile _ => none

def hint? : Issue → Option String
  | .languageOverride _ => some "run `relang fix --apply` to restore the default language"
  | .unreadableFile _ => none

def file : Issue → Path
  | .languageOverride found => found.location.file
  | .unreadableFile found => found.file

/-- The line of an issue. What concerns a whole file stands before its first line. -/
def line : Issue → Nat
  | .languageOverride found => found.location.line
  | .unreadableFile _ => 0

def col : Issue → Nat
  | .languageOverride found => found.location.col
  | .unreadableFile _ => 0

/-- Order by file, then line, then column. -/
def le (a b : Issue) : Bool :=
  if a.file != b.file then a.file < b.file
  else if a.line != b.line then a.line < b.line
  else a.col ≤ b.col

end Issue

end ResourceLanguage
