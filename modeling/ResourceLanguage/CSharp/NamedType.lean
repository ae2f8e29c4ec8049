import ResourceLanguage.CSharp.SourceFile
import ResourceLanguage.Text.Basic

/-!
Named types of a project. The declarations of a type that is declared in several parts share
their qualified name and make up one named type.
-/

namespace ResourceLanguage.CSharp

/-- A type with all places where it is declared. -/
structure NamedType where
  name : String
  qualifiedName : String
  kind : TypeKind
  locations : List Location
  deriving DecidableEq, Repr

/-- The declarations of a file under their qualified names. -/
def SourceFile.qualified (file : SourceFile) : List (String × Declaration) :=
  file.declarations.zipIdx.map fun (declaration, index) =>
    (qualifiedName file.declarations index, declaration)

namespace NamedType

/-- The type with the given qualified name. Its name and kind are those of the first declaration
with that qualified name. -/
def ofName? (declared : List (String × Declaration)) (qualifiedName : String) :
    Option NamedType :=
  match declared.filter (·.1 == qualifiedName) with
  | [] => none
  | (_, first) :: rest =>
      some
        { name := first.identifier
          qualifiedName
          kind := first.kind
          locations :=
            (first.location :: rest.map (·.2.location)).mergeSort Location.le }

/-- The named types of some files, ordered by qualified name. -/
def ofFiles (files : List SourceFile) : List NamedType :=
  let declared := files.flatMap SourceFile.qualified
  (Text.sortedSet (declared.map (·.1))).filterMap (ofName? declared)

end NamedType

end ResourceLanguage.CSharp
