import ResourceLanguage.Text.Basic

/-!
Rules and their messages. A message format has numbered placeholders for its arguments.
-/

namespace ResourceLanguage

open ResourceLanguage.Text

inductive Severity where
  | error
  | warning
  deriving DecidableEq, Repr

def Severity.name : Severity → String
  | .error => "error"
  | .warning => "warning"

/-- What is known of a rule before it finds anything. -/
structure Rule where
  id : String
  title : String
  messageFormat : String
  category : String
  severity : Severity
  enabledByDefault : Bool
  deriving DecidableEq, Repr

def placeholder (index : Nat) : List Char := '{' :: (toString index).toList ++ ['}']

/-- Puts the arguments into a message format, one after the other: each argument replaces its
placeholder in all that the earlier ones have left. -/
def formatMessage (format : String) (args : List String) : String :=
  String.ofList <| args.zipIdx.foldl
    (fun text (arg, index) => replaceAll (placeholder index) arg.toList text) format.toList

namespace Rule

/-- The rule against resource files that override the default language. -/
def defaultLanguage : Rule where
  id := "A0001"
  title := "Resource file overrides the default language"
  messageFormat := "Type '\x7b0\x7d' has a resource file that overrides the default language"
  category := "Naming"
  severity := .error
  enabledByDefault := true

def all : List Rule := [defaultLanguage]

end Rule

end ResourceLanguage
