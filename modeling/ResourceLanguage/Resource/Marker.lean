import ResourceLanguage.Cancellation
import ResourceLanguage.Path
import ResourceLanguage.Text.Basic

/-!
Resource files and the marker by which a form overrides the default language.
-/

namespace ResourceLanguage

open ResourceLanguage.Text

structure Resource where
  path : Path
  text : String
  deriving DecidableEq, Repr

/-- The setting that a resource file holds when its form does not inherit the default
language. -/
def markerToken : String := "$this.Language"

/-- The tag that ends a setting. -/
def closingTag : String := "</metadata>"

def hasMarker (text : String) : Bool := occursIn markerToken.toList text.toList

def hasClosingTag (text : String) : Bool := occursIn closingTag.toList text.toList

namespace Resource

/-- The name by which a resource file belongs to a type: its file name without extension. -/
def baseName? (resource : Resource) : Option String := resource.path.fileStem?

end Resource

structure MarkerScan where
  path : Path
  /-- The base name of a file with the marker. -/
  baseName : Option String
  hasMarker : Bool
  deriving DecidableEq, Repr

namespace MarkerScan

def ofResource (resource : Resource) : MarkerScan :=
  let marked := ResourceLanguage.hasMarker resource.text
  { path := resource.path
    baseName := if marked then resource.baseName? else none
    hasMarker := marked }

/-- Scans the files in order, looking for a request to cancel before each. -/
def ofResources : List Resource → Cancellation →
    Except Cancelled (List MarkerScan × Cancellation)
  | [], cancellation => .ok ([], cancellation)
  | resource :: resources, cancellation => do
      let cancellation ← cancellation.check
      let (scans, cancellation) ← ofResources resources cancellation
      return (ofResource resource :: scans, cancellation)

end MarkerScan

/-- The base names of the files with the marker, each once. -/
def markedNames (scans : List MarkerScan) : List String :=
  (scans.filterMap fun scan => if scan.hasMarker then scan.baseName else none).eraseDups

end ResourceLanguage
