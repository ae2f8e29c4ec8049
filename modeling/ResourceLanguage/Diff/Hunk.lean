import ResourceLanguage.Diff.Compact
import ResourceLanguage.Diff.Script

/-!
Hunks: the changes of an edit script with the lines around them.
-/

namespace ResourceLanguage.Diff

structure HunkLine where
  action : Action
  text : List Char
  deriving DecidableEq, Repr

/-- Some consecutive lines of the old and the new text. `oldStart` and `newStart` count the lines
before the hunk. -/
structure Hunk where
  oldStart : Nat
  newStart : Nat
  lines : List HunkLine
  deriving DecidableEq, Repr

namespace Hunk

def oldCount (hunk : Hunk) : Nat := hunk.lines.countP (·.action != .insert)

def newCount (hunk : Hunk) : Nat := hunk.lines.countP (·.action != .delete)

end Hunk

/-- A change: lines that are replaced by others. -/
structure Change where
  deleted : List (List Char)
  inserted : List (List Char)
  deriving DecidableEq, Repr

/-- A script as an alternation of kept lines and changes. -/
inductive Segment where
  | keep (lines : List (List Char))
  | change (change : Change)
  deriving DecidableEq, Repr

/-- The script with neighbouring steps of one sort joined. -/
def segments : List (Edit (List Char)) → List Segment
  | [] => []
  | edit :: script =>
      match edit.action, segments script with
      | .keep, .keep lines :: rest => .keep (edit.items ++ lines) :: rest
      | .keep, rest => .keep edit.items :: rest
      | .delete, .change c :: rest => .change { c with deleted := edit.items ++ c.deleted } :: rest
      | .delete, rest => .change ⟨edit.items, []⟩ :: rest
      | .insert, .change c :: rest =>
          .change { c with inserted := edit.items ++ c.inserted } :: rest
      | .insert, rest => .change ⟨[], edit.items⟩ :: rest

def contextLength : Nat := 3

def contextLines (lines : List (List Char)) : List HunkLine := lines.map (⟨.keep, ·⟩)

def Change.lines (change : Change) : List HunkLine :=
  change.deleted.map (⟨.delete, ·⟩) ++ change.inserted.map (⟨.insert, ·⟩)

/-- Whether two changes with `gap` kept lines between them share a hunk. They do when fewer lines
are kept than both show; one line more is allowed before an insertion at the end of the text. -/
def joins (gap : Nat) (next : Change) (isLast : Bool) : Bool :=
  gap < 2 * contextLength ||
    (gap = 2 * contextLength && next.deleted.isEmpty && isLast)

/-- The last lines, as many as are shown before a change. -/
def lastContext (lines : List (List Char)) : List (List Char) :=
  lines.drop (lines.length - contextLength)

/-- The hunks of a script. `context` holds the kept lines just before, `oldLine` and `newLine`
count the lines before that, and `current` is a hunk that may go on. -/
def hunksFrom (oldLine newLine : Nat) (context : List (List Char)) (current : Option Hunk) :
    List Segment → List Hunk
  | [] => current.toList
  | .change change :: rest =>
      let hunk := current.getD
        { oldStart := oldLine - context.length
          newStart := newLine - context.length
          lines := contextLines context }
      hunksFrom (oldLine + change.deleted.length) (newLine + change.inserted.length) []
        (some { hunk with lines := hunk.lines ++ change.lines }) rest
  | .keep lines :: rest =>
      let oldLine := oldLine + lines.length
      let newLine := newLine + lines.length
      match current, rest with
      | none, rest => hunksFrom oldLine newLine (lastContext lines) none rest
      | some hunk, .change next :: more =>
          if joins lines.length next more.isEmpty then
            hunksFrom oldLine newLine []
              (some { hunk with lines := hunk.lines ++ contextLines lines }) (.change next :: more)
          else
            { hunk with lines := hunk.lines ++ contextLines (lines.take contextLength) } ::
              hunksFrom oldLine newLine (lastContext lines) none (.change next :: more)
      | some hunk, rest =>
          { hunk with lines := hunk.lines ++ contextLines (lines.take contextLength) } ::
            hunksFrom oldLine newLine (lastContext lines) none rest

/-- The hunks between two texts, given by their raw lines. -/
def hunks (old new : List (List Char)) : List Hunk :=
  hunksFrom 0 0 [] none (segments (compact (script old new)))

def Action.sign : Action → Char
  | .keep => ' '
  | .delete => '-'
  | .insert => '+'

/-- A line with its sign. An empty kept line has none. -/
def HunkLine.render (line : HunkLine) : List Char :=
  if line.action = .keep ∧ line.text = ['\n'] then ['\n'] else line.action.sign :: line.text

/-- A range of lines in the head of a hunk: the number of its first line, and how many there are
unless it is one. An empty range has the number of the line before it. -/
def renderRange (start count : Nat) : String :=
  let first := if count = 0 then start else start + 1
  if count = 1 then toString first else toString first ++ "," ++ toString count

def Hunk.render (hunk : Hunk) : List Char :=
  s!"@@ -{renderRange hunk.oldStart hunk.oldCount} +{renderRange hunk.newStart hunk.newCount} @@\n"
    |>.toList |> (· ++ hunk.lines.flatMap HunkLine.render)

/-- Hunks as a patch between two texts that have no names of their own. -/
def renderPatch (hunks : List Hunk) : List Char :=
  "--- original\n+++ modified\n".toList ++ hunks.flatMap Hunk.render

end ResourceLanguage.Diff
