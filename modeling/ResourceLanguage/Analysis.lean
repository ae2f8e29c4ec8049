import ResourceLanguage.CSharp.NamedType
import ResourceLanguage.IgnoreFilter
import ResourceLanguage.Issue
import ResourceLanguage.Resource.Marker

/-!
The analysis: a type is reported wherever it is declared when a resource file of its name has the
marker.
-/

namespace ResourceLanguage

open ResourceLanguage.CSharp

/-- What an analysis knows of the resource files: the names of those with the marker. -/
structure Analysis where
  markedNames : List String
  filter : IgnoreFilter
  deriving DecidableEq, Repr

namespace Analysis

def ofResources (filter : IgnoreFilter) (resources : List Resource)
    (cancellation : Cancellation) : Except Cancelled (Analysis × Cancellation) := do
  let (scans, cancellation) ← MarkerScan.ofResources resources cancellation
  return ({ markedNames := ResourceLanguage.markedNames scans, filter }, cancellation)

def ofType (analysis : Analysis) (type : NamedType) : List LanguageOverride :=
  if type.name ∈ analysis.markedNames then
    (type.locations.filter fun location => !analysis.filter.isIgnored location.file).map
      fun location => { location, typeName := type.name }
  else []

/-- The issues of one type, unless a request to cancel has arrived. -/
def check (analysis : Analysis) (type : NamedType) (cancellation : Cancellation) :
    Except Cancelled (List LanguageOverride × Cancellation) := do
  let cancellation ← cancellation.check
  return (analysis.ofType type, cancellation)

def checkAll (analysis : Analysis) : List NamedType → Cancellation →
    Except Cancelled (List (List LanguageOverride) × Cancellation)
  | [], cancellation => .ok ([], cancellation)
  | type :: types, cancellation => do
      let (found, cancellation) ← analysis.check type cancellation
      let (rest, cancellation) ← analysis.checkAll types cancellation
      return (found :: rest, cancellation)

end Analysis

end ResourceLanguage
