import ResourceLanguage.Text.Position

/-!
Places in source files, with the line of source that stands there.
-/

namespace ResourceLanguage

open ResourceLanguage.Text

structure Location where
  file : String
  line : Nat
  col : Nat
  sourceLine : String
  deriving DecidableEq, Repr

namespace Location

def ofOffset (file : String) (text : List Char) (offset : Nat) : Location :=
  let (index, line, inside) := lineAt (positionLines text) offset
  { file
    line := index + 1
    col := (takeBytes inside line).length + 1
    sourceLine := String.ofList (trimLineBreaks line) }

/-- Order by file name, then line, then column. File names are compared code point by code
point. -/
def le (a b : Location) : Bool :=
  if a.file != b.file then a.file < b.file
  else if a.line != b.line then a.line < b.line
  else a.col ≤ b.col

end Location

end ResourceLanguage
