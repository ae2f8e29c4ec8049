/-!
Lines of a text. A raw line keeps its line feed, so that the raw lines of a text concatenate to
the text; a bare line has lost its terminator.
-/

namespace ResourceLanguage.Text

/-- The raw lines of a text: every line feed ends one, and what follows the last line feed is a
line of its own unless it is empty. -/
def rawLines : List Char → List (List Char)
  | [] => []
  | c :: cs =>
      if c = '\n' then ['\n'] :: rawLines cs
      else
        match rawLines cs with
        | [] => [[c]]
        | line :: lines => (c :: line) :: lines

/-- Nothing is lost by splitting a text into raw lines. -/
@[simp] theorem flatten_rawLines (cs : List Char) : (rawLines cs).flatten = cs := by
  induction cs with
  | nil => rfl
  | cons c cs ih =>
      rw [rawLines]
      split
      · simp_all
      · split
        · rename_i h
          rw [h] at ih
          simp_all
        · rename_i h
          rw [h] at ih
          simp_all

/-- A raw line without its line feed and without one carriage return before the line feed. A
carriage return that no line feed follows belongs to the line. -/
def bareLine (line : List Char) : List Char :=
  match line.reverse with
  | '\n' :: '\r' :: rest => rest.reverse
  | '\n' :: rest => rest.reverse
  | _ => line

def bareLines (cs : List Char) : List (List Char) := (rawLines cs).map bareLine

/-- A blank stand-in of the same size: every byte of the line but the line feed is a space. -/
def blankLine (line : List Char) : List Char :=
  line.flatMap fun c => if c = '\n' then ['\n'] else List.replicate c.utf8Size ' '

end ResourceLanguage.Text
