import ResourceLanguage.CSharp.Node
import ResourceLanguage.Location
import ResourceLanguage.Text.Basic

/-!
The type declarations of a file, read off its syntax tree in source order.
-/

namespace ResourceLanguage.CSharp

open ResourceLanguage.Text

structure Declaration where
  kind : TypeKind
  /-- The name, without a leading `@`. -/
  identifier : String
  /-- Where the name stands. -/
  location : Location
  /-- The names of the namespaces around the declaration, outermost first, none of them empty. -/
  namespaces : List String
  /-- The index of the declaration of the containing type. -/
  parent : Option Nat
  /-- The whole declaration, attributes and modifiers included. -/
  span : Span
  deriving DecidableEq, Repr

namespace Declaration

/-- The namespace of a declaration; the global namespace is the empty text. -/
def namespaceName (declaration : Declaration) : String :=
  ".".intercalate declaration.namespaces

end Declaration

def Head.declaration (head : Head) (file : String) (text : List Char) (namespaces : List String)
    (parent : Option Nat) : Declaration where
  kind := head.kind
  identifier := String.ofList ((slice text head.name).dropWhile (· == '@'))
  location := .ofOffset file text head.name.start
  namespaces := namespaces
  parent := parent
  span := head.span

/-- The namespaces inside a namespace with the given name. The name is taken as it stands in the
text, without white space. -/
def enterNamespace (text : List Char) (namespaces : List String) (name : Span) : List String :=
  let name := (slice text name).filter fun c => !isBlank c
  if name.isEmpty then namespaces else namespaces ++ [String.ofList name]

/-- The namespaces inside a namespace that may have a name. -/
def enterNamespace? (text : List Char) (namespaces : List String) (name : Option Span) :
    List String :=
  name.elim namespaces (enterNamespace text namespaces)

mutual

/-- The declarations in a node of the tree of `text`. The first of them has index `next`. -/
def Node.declarations (file : String) (text : List Char) (namespaces : List String)
    (parent : Option Nat) (next : Nat) : Node → List Declaration
  | ⟨kind, span, isName, children⟩ =>
      let node : Node := ⟨kind, span, isName, children⟩
      let inside := enterNamespace? text namespaces node.innerName?
      match node.head? with
      | some head =>
          head.declaration file text namespaces parent ::
            declarationsOf file text inside (some next) (next + 1) children
      | none => declarationsOf file text inside parent next children

def declarationsOf (file : String) (text : List Char) (namespaces : List String)
    (parent : Option Nat) (next : Nat) : List Node → List Declaration
  | [] => []
  | node :: nodes =>
      let found := node.declarations file text namespaces parent next
      found ++ declarationsOf file text (enterNamespace? text namespaces node.laterName?) parent
        (next + found.length) nodes

end

/-- The identifiers of the types around the declaration at `index` and its own, outermost
first. -/
def identifierPath (declarations : List Declaration) (index : Nat) : List String :=
  match declarations[index]? with
  | none => []
  | some declaration =>
      match declaration.parent with
      | none => [declaration.identifier]
      | some parent =>
          if parent < index then identifierPath declarations parent ++ [declaration.identifier]
          else [declaration.identifier]
termination_by index

/-- The namespaces, the containing types and the identifier of the declaration at `index`,
joined by dots. -/
def qualifiedName (declarations : List Declaration) (index : Nat) : String :=
  match declarations[index]? with
  | none => ""
  | some declaration =>
      ".".intercalate (declaration.namespaces ++ identifierPath declarations index)

end ResourceLanguage.CSharp
