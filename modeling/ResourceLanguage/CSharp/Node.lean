import ResourceLanguage.Text.Span

/-!
Syntax trees of C# files, as far as type declarations need them. Which tree a text has is left to a
grammar.
-/

namespace ResourceLanguage.CSharp

open ResourceLanguage.Text

inductive TypeKind where
  | classType
  | structType
  | interfaceType
  | recordType
  | enumType
  | delegateType
  deriving DecidableEq, Repr

namespace TypeKind

def all : List TypeKind :=
  [.classType, .structType, .interfaceType, .recordType, .enumType, .delegateType]

def name : TypeKind → String
  | .classType => "class"
  | .structType => "struct"
  | .interfaceType => "interface"
  | .recordType => "record"
  | .enumType => "enum"
  | .delegateType => "delegate"

def ofName? (name : String) : Option TypeKind := all.find? (·.name == name)

/-- Whether types of this kind can enclose a position: they have members. -/
def hasMembers : TypeKind → Bool
  | .enumType | .delegateType => false
  | _ => true

end TypeKind

inductive Node.Kind where
  /-- A namespace with its members in braces. -/
  | namespaceBlock
  /-- A namespace that applies to everything after it. -/
  | namespaceFile
  | type (kind : TypeKind)
  /-- Anything else, tokens and text with syntax errors included. -/
  | other
  deriving DecidableEq, Repr

/-- A node of a syntax tree covers a byte range of the text. -/
structure Node where
  kind : Node.Kind
  span : Span
  /-- Whether the node is the name of its parent. -/
  isName : Bool
  children : List Node
  deriving Repr

/-- What a tree says about one declared type. -/
structure Head where
  kind : TypeKind
  name : Span
  span : Span
  deriving DecidableEq

namespace Node

mutual

def decEq : (node other : Node) → Decidable (node = other)
  | ⟨kind, span, isName, children⟩, ⟨kind', span', isName', children'⟩ =>
      have := decEqList children children'
      decidable_of_iff
        (kind = kind' ∧ span = span' ∧ isName = isName' ∧ children = children') (by simp)

def decEqList : (nodes others : List Node) → Decidable (nodes = others)
  | [], [] => isTrue rfl
  | [], _ :: _ => isFalse (by simp)
  | _ :: _, [] => isFalse (by simp)
  | node :: nodes, other :: others =>
      have := decEq node other
      have := decEqList nodes others
      decidable_of_iff (node = other ∧ nodes = others) (by simp)

end

instance : DecidableEq Node := decEq

def name? (node : Node) : Option Span := (node.children.find? (·.isName)).map (·.span)

/-- A type that has no name, as in text with syntax errors, is not declared. -/
def head? (node : Node) : Option Head :=
  match node.kind, node.name? with
  | .type kind, some name => some ⟨kind, name, node.span⟩
  | _, _ => none

/-- The name of the namespace around the children. -/
def innerName? (node : Node) : Option Span :=
  match node.kind with
  | .namespaceBlock | .namespaceFile => node.name?
  | _ => none

/-- The name of the namespace that applies after the node. -/
def laterName? (node : Node) : Option Span :=
  match node.kind with
  | .namespaceFile => node.name?
  | _ => none

/-- Whether the node declares a type that can enclose a position. -/
def hasMembers (node : Node) : Bool :=
  match node.kind with
  | .type kind => kind.hasMembers
  | _ => false

end Node

/-! ### The innermost node -/

mutual

/-- The nodes around an offset, outermost first. -/
def Node.path (offset : Nat) : Node → List Node
  | ⟨kind, span, isName, children⟩ =>
      ⟨kind, span, isName, children⟩ :: pathOf offset children

/-- The way down through consecutive nodes: the first one that ends after the offset is entered,
unless it begins after the offset too. -/
def pathOf (offset : Nat) : List Node → List Node
  | [] => []
  | node :: nodes =>
      if node.span.stop ≤ offset then pathOf offset nodes
      else if node.span.start ≤ offset then node.path offset
      else []

end

/-- The trees of texts: the nodes below the root. Nothing else is known of them. -/
class Grammar where
  tree : List Char → List Node

end ResourceLanguage.CSharp
