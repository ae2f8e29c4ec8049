import ResourceLanguage.ActiveCode
import ResourceLanguage.CSharp.Declaration

/-!
Parsed source files. Only active code is parsed, while names and places are read off the whole
text.
-/

namespace ResourceLanguage.CSharp

open ResourceLanguage.Text

structure SourceFile where
  path : String
  source : String
  tree : List Node
  declarations : List Declaration := declarationsOf path source.toList [] none 0 tree
  declarations_eq : declarations = declarationsOf path source.toList [] none 0 tree := by rfl
  deriving DecidableEq, Repr

namespace SourceFile

/-- Parses a file whose text is `source` under some conditional compilation symbols. -/
def parse [Grammar] (path source : String) (symbols : Symbols) : SourceFile :=
  { path, source, tree := Grammar.tree (activeCode source.toList symbols) }

/-- The declaration around a line and column: from the innermost node there the way leads up to a
type with members, and its declaration is the one with the same byte range. -/
def enclosing? (file : SourceFile) (line col : Nat) : Option Declaration := do
  let offset ← offsetOf? file.source.toList line col
  let node ← (pathOf offset file.tree).reverse.find? (·.hasMembers)
  file.declarations.find? (·.span == node.span)

end SourceFile

end ResourceLanguage.CSharp
