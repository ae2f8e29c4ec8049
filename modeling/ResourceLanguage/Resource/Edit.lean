import ResourceLanguage.Resource.Marker
import ResourceLanguage.Text.Line

/-!
Removing the marker from a resource file, line by line.
-/

namespace ResourceLanguage

open ResourceLanguage.Text

inductive LineEnding where
  | lineFeed
  | carriageReturnLineFeed
  deriving DecidableEq, Repr

namespace LineEnding

def text : LineEnding → String
  | .lineFeed => "\n"
  | .carriageReturnLineFeed => "\r\n"

/-- One carriage return before a line feed decides for the whole text. -/
def detect (text : String) : LineEnding :=
  if occursIn ['\r', '\n'] text.toList then .carriageReturnLineFeed else .lineFeed

end LineEnding

/-- The lines of a text without their terminators. -/
def textLines (text : String) : List String := (bareLines text.toList).map String.ofList

/-- The text of some lines, each with a terminator. -/
def joinLines (lines : List String) (ending : LineEnding) : String :=
  String.ofList (lines.flatMap fun line => line.toList ++ ending.text.toList)

/-- Drops the setting that the marker begins: everything from the first line with the marker
through the next line with a closing tag, or to the end when there is none. -/
def stripMarkerLines (lines : List String) : List String :=
  let header := lines.takeWhile fun line => !hasMarker line
  let block := lines.dropWhile fun line => !hasMarker line
  header ++ (block.dropWhile fun line => !hasClosingTag line).drop 1

end ResourceLanguage
