import ResourceLanguage.Path
import ResourceLanguage.Text.Lowercase

/-!
Files in which nothing is reported, chosen by the ends of their paths without regard to case.
-/

namespace ResourceLanguage

open ResourceLanguage.Text

/-- The suffixes of ignored files, in lower case. -/
structure IgnoreFilter where
  suffixes : List (List Char)
  deriving DecidableEq, Repr

namespace IgnoreFilter

/-- The filter for suffixes in any case. -/
def ofSuffixes (suffixes : List String) : IgnoreFilter :=
  ⟨suffixes.map fun suffix => lowercase suffix.toList⟩

def designerSuffix : String := ".Designer.cs"

def designer : IgnoreFilter := ofSuffixes [designerSuffix]

def isIgnored (filter : IgnoreFilter) (path : Path) : Bool :=
  let lower := lowercase path.toList
  filter.suffixes.any (·.isSuffixOf lower)

end IgnoreFilter

end ResourceLanguage
