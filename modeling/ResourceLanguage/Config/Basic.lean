import ResourceLanguage.IgnoreFilter

/-!
Configuration of a project, and how it is written.
-/

namespace ResourceLanguage

structure Config where
  /-- Literal paths and patterns of files that are passed over. -/
  ignores : List String := ["**/bin/**", "**/obj/**"]
  /-- Literal paths and patterns of directories that are looked at, if not all are. -/
  includes : List String := []
  ignoreFileSuffixes : List String := [IgnoreFilter.designerSuffix]
  sourceRoot : Path := "./"
  /-- Symbols that are defined for conditional compilation. -/
  preprocessorSymbols : List String := []
  deriving DecidableEq, Repr

namespace Config

def fileName : String := ".relangrc.json"

def escapeJson (c : Char) : List Char :=
  match c with
  | '"' => ['\\', '"']
  | '\\' => ['\\', '\\']
  | '\x08' => ['\\', 'b']
  | '\x0c' => ['\\', 'f']
  | '\n' => ['\\', 'n']
  | '\r' => ['\\', 'r']
  | '\t' => ['\\', 't']
  | c =>
      if c.toNat < 0x20 then
        ['\\', 'u', '0', '0'] ++ (if c.toNat < 16 then ['0'] else []) ++ Nat.toDigits 16 c.toNat
      else [c]

def renderText (text : String) : String :=
  String.ofList ('"' :: text.toList.flatMap escapeJson ++ ['"'])

/-- A list of texts, one on each line. -/
def renderTexts (texts : List String) : String :=
  if texts.isEmpty then "[]"
  else "[\n" ++ ",\n".intercalate (texts.map fun text => "    " ++ renderText text) ++ "\n  ]"

/-- A configuration as JSON. -/
def render (config : Config) : String :=
  let fields :=
    [("ignores", renderTexts config.ignores),
     ("includes", renderTexts config.includes),
     ("ignoreFileSuffixes", renderTexts config.ignoreFileSuffixes),
     ("sourceRoot", renderText config.sourceRoot),
     ("preprocessorSymbols", renderTexts config.preprocessorSymbols)]
  "\x7b\n" ++ ",\n".intercalate (fields.map fun (name, value) =>
    "  " ++ renderText name ++ ": " ++ value) ++ "\n\x7d"

end Config

end ResourceLanguage
