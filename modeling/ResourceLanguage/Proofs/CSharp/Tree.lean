import ResourceLanguage.CSharp.SourceFile

/-!
Syntax trees as lists of their nodes, what is expected of them, and declarations as byte ranges.
What a tree says about a declaration does not hang on the text from which names are cut.
-/

namespace ResourceLanguage

namespace Text.Span

theorem contains_iff {span : Span} {offset : Nat} :
    span.contains offset = true ↔ span.start ≤ offset ∧ offset < span.stop := by
  simp only [contains, Bool.and_eq_true, decide_eq_true_eq]

/-- The inner range lies inside the outer one. -/
def Covers (outer inner : Span) : Prop := outer.start ≤ inner.start ∧ inner.stop ≤ outer.stop

instance (outer inner : Span) : Decidable (outer.Covers inner) :=
  inferInstanceAs (Decidable (_ ∧ _))

namespace Covers

variable {outer middle inner : Span}

theorem refl (span : Span) : span.Covers span := ⟨Nat.le_refl _, Nat.le_refl _⟩

theorem trans (h : outer.Covers middle) (h' : middle.Covers inner) : outer.Covers inner :=
  ⟨Nat.le_trans h.1 h'.1, Nat.le_trans h'.2 h.2⟩

theorem antisymm (h : outer.Covers inner) (h' : inner.Covers outer) : outer = inner := by
  cases outer
  cases inner
  exact congr (congrArg mk (Nat.le_antisymm h.1 h'.1)) (Nat.le_antisymm h'.2 h.2)

end Covers

end Text.Span

namespace CSharp

open ResourceLanguage.Text

/-- Induction on consecutive nodes: the first of them has its children, and others follow it. -/
theorem forestInduction {motive : List Node → Prop} (nil : motive [])
    (cons : ∀ node nodes, motive node.children → motive nodes → motive (node :: nodes))
    (nodes : List Node) : motive nodes :=
  @Node.rec_1 (fun node => motive node.children) motive (fun _ _ _ _ h => h) nil cons nodes

/-! ### The nodes of a tree -/

mutual

/-- A node and all nodes below it, in source order. -/
def Node.nodes : Node → List Node
  | ⟨kind, span, isName, children⟩ => ⟨kind, span, isName, children⟩ :: nodesOf children

def nodesOf : List Node → List Node
  | [] => []
  | node :: nodes => node.nodes ++ nodesOf nodes

end

theorem nodesOf_cons (node : Node) (nodes : List Node) :
    nodesOf (node :: nodes) = node :: (nodesOf node.children ++ nodesOf nodes) := by
  cases node
  rfl

theorem nodesOf_append (nodes others : List Node) :
    nodesOf (nodes ++ others) = nodesOf nodes ++ nodesOf others := by
  induction nodes with
  | nil => rfl
  | cons node nodes ih => rw [List.cons_append, nodesOf, nodesOf, ih, List.append_assoc]

theorem subset_nodesOf (nodes : List Node) : nodes ⊆ nodesOf nodes := by
  induction nodes with
  | nil => exact List.nil_subset _
  | cons node nodes ih =>
      rw [nodesOf_cons]
      exact List.cons_subset_cons node (List.Subset.trans ih (List.subset_append_right _ _))

/-- What is below a node of a tree is in the tree. -/
theorem nodesOf_children_subset {nodes : List Node} {node : Node} (h : node ∈ nodesOf nodes) :
    nodesOf node.children ⊆ nodesOf nodes := by
  induction nodes using forestInduction with
  | nil => cases h
  | cons first nodes ihchildren ihnodes =>
      rw [nodesOf_cons] at h ⊢
      refine List.Subset.trans ?_ (List.subset_cons_self first _)
      rcases List.mem_cons.mp h with rfl | h
      · exact List.subset_append_left _ _
      · rcases List.mem_append.mp h with h | h
        · exact List.Subset.trans (ihchildren h) (List.subset_append_left _ _)
        · exact List.Subset.trans (ihnodes h) (List.subset_append_right _ _)

/-- The declared types of a tree, in source order. -/
def headsOf (nodes : List Node) : List Head := (nodesOf nodes).filterMap (·.head?)

def spansOf (nodes : List Node) : List Span := (nodesOf nodes).map (·.span)

def namespaceNamesOf (nodes : List Node) : List Span := (nodesOf nodes).filterMap (·.innerName?)

theorem headsOf_cons (node : Node) (nodes : List Node) :
    headsOf (node :: nodes) = node.head?.toList ++ headsOf node.children ++ headsOf nodes := by
  rw [headsOf, nodesOf_cons, ← List.singleton_append, List.filterMap_append,
    List.filterMap_append, ← List.append_assoc]
  cases hhead : node.head? <;> simp [headsOf, hhead]

namespace Node

variable {node : Node}

theorem head?_eq_some_iff {head : Head} :
    node.head? = some head ↔
      node.kind = .type head.kind ∧ node.name? = some head.name ∧ node.span = head.span := by
  obtain ⟨kind, name, span⟩ := head
  unfold head?
  split
  · rename_i kind' name' hkind hname
    simp [hkind, hname]
  · rename_i hnone
    simp only [reduceCtorEq, false_iff, not_and]
    exact fun hkind hname _ => hnone _ _ hkind hname

theorem innerName?_of_laterName? {name : Span} (h : node.laterName? = some name) :
    node.innerName? = some name := by
  unfold laterName? at h
  unfold innerName?
  split at h
  · rename_i hkind
    rw [hkind]
    exact h
  · cases h

end Node

/-! ### What is expected of a tree -/

def Node.isType (node : Node) : Bool :=
  match node.kind with
  | .type _ => true
  | _ => false

/-- Nodes stand one behind the other. -/
def InOrder (nodes : List Node) : Prop :=
  nodes.Pairwise fun node later => node.span.stop ≤ later.span.start

/-- What is expected of every tree: children lie inside their parent, and siblings stand one behind
the other. -/
structure Nested (tree : List Node) : Prop where
  inside : ∀ node ∈ nodesOf tree, ∀ child ∈ node.children, node.span.Covers child.span
  siblings : InOrder tree ∧ ∀ node ∈ nodesOf tree, InOrder node.children

/-- What is expected of a tree without syntax errors: in addition, every type has a name, which is a
token right below it and not empty. -/
structure WellFormed (tree : List Node) : Prop extends Nested tree where
  named : ∀ node ∈ nodesOf tree, node.isType = true → ∃ name ∈ node.children,
    node.children.find? (·.isName) = some name ∧ name.kind = .other ∧ name.children = [] ∧
      name.span.start < name.span.stop

instance (nodes : List Node) : Decidable (InOrder nodes) :=
  inferInstanceAs (Decidable (List.Pairwise _ _))

instance (tree : List Node) : Decidable (WellFormed tree) :=
  decidable_of_iff
    ((∀ node ∈ nodesOf tree, ∀ child ∈ node.children, node.span.Covers child.span) ∧
      (InOrder tree ∧ ∀ node ∈ nodesOf tree, InOrder node.children) ∧
      ∀ node ∈ nodesOf tree, node.isType = true → ∃ name ∈ node.children,
        node.children.find? (·.isName) = some name ∧ name.kind = .other ∧ name.children = [] ∧
          name.span.start < name.span.stop)
    ⟨fun h => ⟨⟨h.1, h.2.1⟩, h.2.2⟩, fun h => ⟨h.inside, h.siblings, h.named⟩⟩

/-- A character that is not white space begins at the offset. -/
def VisibleAt (text : List Char) (offset : Nat) : Prop :=
  ∃ front c back, text = front ++ c :: back ∧ isBlank c = false ∧ byteSize front = offset

/-- A character that is not white space ends at the offset. -/
def VisibleBefore (text : List Char) (offset : Nat) : Prop :=
  ∃ front c back, text = front ++ c :: back ∧ isBlank c = false ∧
    byteSize (front ++ [c]) = offset

/-- What is expected of names: they begin with a visible character, unless they are empty because
the text has none, and names of types lie on one line. An empty name of a type stands right behind
what comes before it. -/
structure Readable (text : List Char) (tree : List Node) : Prop where
  types : ∀ head ∈ headsOf tree, VisibleAt text head.name.start ∨
    head.name.start = head.name.stop ∧ VisibleBefore text head.name.start
  lines : ∀ head ∈ headsOf tree, '\n' ∉ slice text head.name
  namespaces : ∀ name ∈ namespaceNamesOf tree, VisibleAt text name.start ∨ name.start = name.stop

/-! ### Outlines -/

/-- What a tree says about one declaration: its head, the names of the namespaces around it,
outermost first, and the index of the containing type. -/
structure Outline extends Head where
  namespaces : List Span
  parent : Option Nat
  deriving DecidableEq

mutual

/-- The outlines in a node. The first of them has index `next`. -/
def Node.outlines (names : List Span) (parent : Option Nat) (next : Nat) : Node → List Outline
  | ⟨kind, span, isName, children⟩ =>
      let node : Node := ⟨kind, span, isName, children⟩
      let inside := names ++ node.innerName?.toList
      match node.head? with
      | some head =>
          { head with namespaces := names, parent } ::
            outlinesOf inside (some next) (next + 1) children
      | none => outlinesOf inside parent next children

def outlinesOf (names : List Span) (parent : Option Nat) (next : Nat) : List Node → List Outline
  | [] => []
  | node :: nodes =>
      let found := node.outlines names parent next
      found ++ outlinesOf (names ++ node.laterName?.toList) parent (next + found.length) nodes

end

namespace Outline

def read (file : String) (text : List Char) (outline : Outline) : Declaration :=
  outline.toHead.declaration file text (outline.namespaces.foldl (enterNamespace text) [])
    outline.parent

end Outline

section Unfolding

variable {node : Node} (file : String) (text : List Char) (namespaces : List String)
  (names : List Span) (parent : Option Nat) (next : Nat)

theorem declarations_of_head {head : Head} (h : node.head? = some head) :
    node.declarations file text namespaces parent next =
      head.declaration file text namespaces parent ::
        declarationsOf file text (enterNamespace? text namespaces node.innerName?) (some next)
          (next + 1) node.children := by
  cases node
  rw [Node.declarations, h]

theorem declarations_of_none (h : node.head? = none) :
    node.declarations file text namespaces parent next =
      declarationsOf file text (enterNamespace? text namespaces node.innerName?) parent next
        node.children := by
  cases node
  rw [Node.declarations, h]

theorem outlines_of_head {head : Head} (h : node.head? = some head) :
    node.outlines names parent next = { head with namespaces := names, parent } ::
      outlinesOf (names ++ node.innerName?.toList) (some next) (next + 1) node.children := by
  cases node
  rw [Node.outlines, h]

theorem outlines_of_none (h : node.head? = none) :
    node.outlines names parent next =
      outlinesOf (names ++ node.innerName?.toList) parent next node.children := by
  cases node
  rw [Node.outlines, h]

theorem enterNamespace?_foldl (name : Option Span) :
    enterNamespace? text (names.foldl (enterNamespace text) []) name =
      (names ++ name.toList).foldl (enterNamespace text) [] := by
  rw [List.foldl_append]
  cases name <;> rfl

end Unfolding

/-- Declarations are outlines with the names cut from the text. -/
theorem declarationsOf_eq_map_read (file : String) (text : List Char) (names : List Span)
    (parent : Option Nat) (next : Nat) (nodes : List Node) :
    declarationsOf file text (names.foldl (enterNamespace text) []) parent next nodes =
      (outlinesOf names parent next nodes).map (·.read file text) := by
  induction nodes using forestInduction generalizing names parent next with
  | nil => rfl
  | cons node nodes ihchildren ihnodes =>
      have hnode : node.declarations file text (names.foldl (enterNamespace text) []) parent next =
          (node.outlines names parent next).map (·.read file text) := by
        cases hhead : node.head? with
        | some head =>
            rw [declarations_of_head _ _ _ _ _ hhead, outlines_of_head _ _ _ hhead,
              enterNamespace?_foldl, ihchildren, List.map_cons]
            rfl
        | none =>
            rw [declarations_of_none _ _ _ _ _ hhead, outlines_of_none _ _ _ hhead,
              enterNamespace?_foldl, ihchildren]
      rw [declarationsOf, outlinesOf, List.map_append, hnode, List.length_map,
        enterNamespace?_foldl, ihnodes]

theorem map_head_outlinesOf (names : List Span) (parent : Option Nat) (next : Nat)
    (nodes : List Node) : (outlinesOf names parent next nodes).map (·.toHead) = headsOf nodes := by
  induction nodes using forestInduction generalizing names parent next with
  | nil => rfl
  | cons node nodes ihchildren ihnodes =>
      rw [outlinesOf, headsOf_cons, List.map_append, ihnodes]
      cases hhead : node.head? with
      | some head =>
          rw [outlines_of_head _ _ _ hhead, List.map_cons, ihchildren]
          rfl
      | none =>
          rw [outlines_of_none _ _ _ hhead, ihchildren]
          rfl

/-- The namespaces of an outline have their names from the tree. -/
theorem namespaces_subset {all names : List Span} {parent : Option Nat} {next : Nat}
    {nodes : List Node} (hnames : names ⊆ all) (hnodes : namespaceNamesOf nodes ⊆ all) :
    ∀ outline ∈ outlinesOf names parent next nodes, outline.namespaces ⊆ all := by
  induction nodes using forestInduction generalizing names parent next with
  | nil => exact fun outline h => absurd h List.not_mem_nil
  | cons node nodes ihchildren ihnodes =>
      rw [namespaceNamesOf, nodesOf_cons, List.filterMap_cons] at hnodes
      have hinner : ∀ name, node.innerName? = some name → name ∈ all := by
        intro name hname
        rw [hname] at hnodes
        exact hnodes List.mem_cons_self
      have hbelow : namespaceNamesOf node.children ++ namespaceNamesOf nodes ⊆ all := by
        rw [namespaceNamesOf, namespaceNamesOf, ← List.filterMap_append]
        refine List.Subset.trans ?_ hnodes
        split
        · exact List.Subset.refl _
        · exact List.subset_cons_self _ _
      obtain ⟨hchildren, hrest⟩ := List.append_subset.mp hbelow
      have hinside : names ++ node.innerName?.toList ⊆ all :=
        List.append_subset.mpr ⟨hnames, fun name hname => hinner name (Option.mem_toList.mp hname)⟩
      have hlater : names ++ node.laterName?.toList ⊆ all :=
        List.append_subset.mpr ⟨hnames, fun name hname =>
          hinner name (Node.innerName?_of_laterName? (Option.mem_toList.mp hname))⟩
      rw [outlinesOf, List.forall_mem_append]
      refine ⟨?_, ihnodes hlater hrest⟩
      cases hhead : node.head? with
      | some head =>
          rw [outlines_of_head _ _ _ hhead]
          exact List.forall_mem_cons.mpr ⟨hnames, ihchildren hinside hchildren⟩
      | none =>
          rw [outlines_of_none _ _ _ hhead]
          exact ihchildren hinside hchildren

namespace SourceFile

def outlines (file : SourceFile) : List Outline := outlinesOf [] none 0 file.tree

theorem declarations_eq_map_read (file : SourceFile) :
    file.declarations = file.outlines.map (·.read file.path file.source.toList) :=
  file.declarations_eq.trans (declarationsOf_eq_map_read file.path _ [] none 0 file.tree)

theorem map_head_outlines (file : SourceFile) : file.outlines.map (·.toHead) = headsOf file.tree :=
  map_head_outlinesOf [] none 0 file.tree

variable {file : SourceFile} {declaration : Declaration}

/-- A declaration is read off one of the heads of the tree. -/
theorem exists_head (h : declaration ∈ file.declarations) :
    ∃ head ∈ headsOf file.tree, ∃ namespaces parent,
      declaration = head.declaration file.path file.source.toList namespaces parent := by
  rw [file.declarations_eq_map_read] at h
  obtain ⟨outline, houtline, rfl⟩ := List.mem_map.mp h
  refine ⟨outline.toHead, ?_, _, _, rfl⟩
  rw [← file.map_head_outlines]
  exact List.mem_map_of_mem houtline

theorem file_location (h : declaration ∈ file.declarations) :
    declaration.location.file = file.path := by
  obtain ⟨head, -, namespaces, parent, rfl⟩ := exists_head h
  rfl

end SourceFile

end CSharp

end ResourceLanguage
