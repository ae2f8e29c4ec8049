import ResourceLanguage.Text.Span

/-!
Lines and columns of a text, counted from one. A column counts characters, an offset counts
bytes. A line feed belongs to the line that it ends, and the text after the last line feed is a
line even when it is empty.
-/

namespace ResourceLanguage.Text

/-- The lines of a text with their line feeds, the last one without. -/
def positionLines : List Char → List (List Char)
  | [] => [[]]
  | c :: cs =>
      if c = '\n' then ['\n'] :: positionLines cs
      else
        match positionLines cs with
        | [] => [[c]]
        | line :: lines => (c :: line) :: lines

/-- The offset of a line and column. Column zero acts as column one, and a column past the line
gives the offset after the line. -/
def offsetOf? (cs : List Char) (line col : Nat) : Option Nat :=
  match line with
  | 0 => none
  | index + 1 =>
      let lines := positionLines cs
      lines[index]?.map fun text =>
        byteSize (lines.take index).flatten + byteSize (text.take (col - 1))

/-- The index of the line that holds an offset, the line, and the offset inside it. -/
def lineAt : List (List Char) → Nat → Nat × List Char × Nat
  | [], offset => (0, [], offset)
  | [line], offset => (0, line, offset)
  | line :: lines, offset =>
      if offset < byteSize line then (0, line, offset)
      else
        let (index, found, inside) := lineAt lines (offset - byteSize line)
        (index + 1, found, inside)

def trimLineBreaks (line : List Char) : List Char :=
  (line.reverse.dropWhile fun c => c == '\n' || c == '\r').reverse

end ResourceLanguage.Text
