import ResourceLanguage.Text.Basic

/-!
Styled text for terminals that understand escape sequences.
-/

namespace ResourceLanguage.Text

inductive Style where
  | bold
  | dimmed
  | red
  | green
  | yellow
  | blue
  | cyan
  deriving DecidableEq, Repr

def Style.code : Style → String
  | .bold => "1"
  | .dimmed => "2"
  | .red => "31"
  | .green => "32"
  | .yellow => "33"
  | .blue => "34"
  | .cyan => "36"

def styleReset : String := "\x1b[0m"

def styleStart (styles : List Style) : String :=
  "\x1b[" ++ ";".intercalate (styles.map Style.code) ++ "m"

/-- Whether output is styled. -/
structure Palette where
  isColored : Bool
  deriving DecidableEq, Repr

/-- A text in some styles. They are selected anew wherever the text itself ends all styles. -/
def Palette.paint (palette : Palette) (styles : List Style) (text : String) : String :=
  if palette.isColored then
    let start := styleStart styles
    let inner := replaceAll styleReset.toList (styleReset ++ start).toList text.toList
    start ++ String.ofList inner ++ styleReset
  else text

/-- A text with blanks in front, at least `width` characters long. -/
def padLeft (width : Nat) (text : String) : String :=
  String.ofList (List.replicate (width - text.length) ' ') ++ text

end ResourceLanguage.Text
