import ResourceLanguage.Diff.Hunk
import ResourceLanguage.Resource.Edit

/-!
Planned changes of resource files, and how they are shown.
-/

namespace ResourceLanguage

open ResourceLanguage.Text

/-- A change of a resource file, given by its lines before and after. -/
structure Plan where
  path : Path
  originalLines : List String
  newLines : List String
  lineEnding : LineEnding
  deriving DecidableEq, Repr

namespace Plan

/-- The plan that removes the marker from a file with the given text. -/
def ofText (path : Path) (text : String) : Plan :=
  let lines := textLines text
  { path
    originalLines := lines
    newLines := stripMarkerLines lines
    lineEnding := LineEnding.detect text }

/-- Whether the lines stay as they are. -/
def isNoop (plan : Plan) : Bool := plan.originalLines == plan.newLines

def originalText (plan : Plan) : String := joinLines plan.originalLines plan.lineEnding

def newText (plan : Plan) : String := joinLines plan.newLines plan.lineEnding

def hunks (plan : Plan) : List Diff.Hunk :=
  Diff.hunks (rawLines plan.originalText.toList) (rawLines plan.newText.toList)

def afterLine (text : List Char) : List Char := (text.dropWhile (· != '\n')).drop 1

/-- The change as a unified diff. Its header lines name the file. -/
def renderDiff (plan : Plan) : String :=
  let hunks := afterLine (afterLine (Diff.renderPatch plan.hunks))
  let text := "--- a/" ++ plan.path ++ "\n+++ b/" ++ plan.path ++ "\n" ++ String.ofList hunks
  if text.toList.getLast? == some '\n' then text else text ++ "\n"

end Plan

end ResourceLanguage
