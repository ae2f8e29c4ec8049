import Mathlib.Data.List.Nodup
import ResourceLanguage.Proofs.CSharp.Tree
import ResourceLanguage.Proofs.Text.Position

/-!
The innermost type around a declaration. In a well-formed tree the way down to an offset meets all
nodes that contain the offset, so the type that is found from there is the last declaration around
it. Byte ranges of declarations are disjoint or one contains the other, so the types around a
declaration form a chain, and the last of them in the file is the innermost one. Around the name of
a type with members, it is the type itself, even if other types are without names.
-/

namespace ResourceLanguage.CSharp

open ResourceLanguage.Text

theorem mem_headsOf {nodes : List Node} {head : Head} :
    head ∈ headsOf nodes ↔ ∃ node ∈ nodesOf nodes, node.head? = some head := List.mem_filterMap

/-! ### The way down -/

/-- A node of consecutive ones is in one of them. -/
theorem exists_top {nodes : List Node} {node : Node} (h : node ∈ nodesOf nodes) :
    ∃ top ∈ nodes, node = top ∨ node ∈ nodesOf top.children := by
  induction nodes with
  | nil => cases h
  | cons first nodes ih =>
      rw [nodesOf_cons] at h
      rcases List.mem_cons.mp h with rfl | h
      · exact ⟨node, List.mem_cons_self, .inl rfl⟩
      · rcases List.mem_append.mp h with h | h
        · exact ⟨first, List.mem_cons_self, .inr h⟩
        · obtain ⟨top, htop, hnode⟩ := ih h
          exact ⟨top, List.mem_cons_of_mem first htop, hnode⟩

namespace Node

variable {node : Node}

theorem isType_of_hasMembers (h : node.hasMembers = true) : node.isType = true := by
  cases hkind : node.kind with
  | type kind => rw [isType, hkind]
  | namespaceBlock | namespaceFile | other =>
      rw [hasMembers, hkind] at h
      cases h

theorem hasMembers_of_head? {head : Head} (h : node.head? = some head) :
    node.hasMembers = head.kind.hasMembers := by
  rw [hasMembers, (head?_eq_some_iff.mp h).1]

theorem isType_of_head? {head : Head} (h : node.head? = some head) : node.isType = true := by
  rw [isType, (head?_eq_some_iff.mp h).1]

end Node

namespace Nested

variable {node : Node} {nodes tree : List Node}

theorem children (h : Nested tree) (hnode : node ∈ nodesOf tree) : Nested node.children := by
  have hsub := nodesOf_children_subset hnode
  exact ⟨fun inner hinner => h.inside inner (hsub hinner),
    h.siblings.2 node hnode, fun inner hinner => h.siblings.2 inner (hsub hinner)⟩

theorem tail (h : Nested (node :: nodes)) : Nested nodes := by
  have hsub : nodesOf nodes ⊆ nodesOf (node :: nodes) := List.subset_append_right _ _
  exact ⟨fun inner hinner => h.inside inner (hsub hinner),
    h.siblings.1.of_cons, fun inner hinner => h.siblings.2 inner (hsub hinner)⟩

theorem head_mem (node : Node) (nodes : List Node) : node ∈ nodesOf (node :: nodes) :=
  subset_nodesOf _ List.mem_cons_self

/-- What is below a node lies inside it. -/
theorem covers (h : Nested tree) (hnode : node ∈ nodesOf tree) {inner : Node}
    (hinner : inner ∈ nodesOf node.children) : node.span.Covers inner.span := by
  induction tree using forestInduction generalizing node with
  | nil => cases hnode
  | cons first nodes ihchildren ihnodes =>
      have hbelow : Nested first.children := h.children (head_mem first nodes)
      rw [nodesOf_cons] at hnode
      rcases List.mem_cons.mp hnode with rfl | hnode
      · obtain ⟨child, hchild, rfl | hin⟩ := exists_top hinner
        · exact h.inside node (head_mem node nodes) _ hchild
        · exact (h.inside node (head_mem node nodes) child hchild).trans
            (ihchildren hbelow (subset_nodesOf _ hchild) hin)
      · rcases List.mem_append.mp hnode with hnode | hnode
        · exact ihchildren hbelow hnode hinner
        · exact ihnodes h.tail hnode hinner

theorem exists_covers (h : Nested tree) (hnode : node ∈ nodesOf tree) :
    ∃ top ∈ tree, top.span.Covers node.span := by
  obtain ⟨top, htop, rfl | hin⟩ := exists_top hnode
  · exact ⟨node, htop, .refl _⟩
  · exact ⟨top, htop, h.covers (subset_nodesOf tree htop) hin⟩

/-- What follows a node among its siblings begins after it. -/
theorem stop_le (h : Nested (node :: nodes)) {later : Node} (hlater : later ∈ nodesOf nodes) :
    node.span.stop ≤ later.span.start := by
  obtain ⟨top, htop, hcovers⟩ := h.tail.exists_covers hlater
  exact Nat.le_trans ((List.pairwise_cons.mp h.siblings.1).1 top htop) hcovers.1

/-- The way down to an offset meets exactly the nodes that contain the offset. -/
theorem pathOf_eq_filter (h : Nested tree) (offset : Nat) :
    pathOf offset tree = (nodesOf tree).filter (·.span.contains offset) := by
  induction tree using forestInduction with
  | nil => rfl
  | cons node nodes ihchildren ihnodes =>
      have hmem := head_mem node nodes
      have hnone {inners : List Node}
          (hout : ∀ inner ∈ inners, inner.span.stop ≤ offset ∨ offset < inner.span.start) :
          inners.filter (·.span.contains offset) = [] := by
        refine List.filter_eq_nil_iff.mpr fun inner hinner => ?_
        have := hout inner hinner
        rw [Span.contains_iff]
        omega
      rw [pathOf, nodesOf_cons, List.filter_cons, List.filter_append]
      by_cases hstop : node.span.stop ≤ offset
      · have hself : ¬node.span.contains offset = true := by
          rw [Span.contains_iff]
          omega
        rw [if_pos hstop, if_neg hself, ihnodes h.tail,
          hnone fun inner hinner => .inl (Nat.le_trans (h.covers hmem hinner).2 hstop),
          List.nil_append]
      · have hlater : (nodesOf nodes).filter (·.span.contains offset) = [] :=
          hnone fun inner hinner => .inr (by have := h.stop_le hinner; omega)
        rw [if_neg hstop, hlater, List.append_nil]
        by_cases hstart : node.span.start ≤ offset
        · have hself : node.span.contains offset = true := by
            rw [Span.contains_iff]
            omega
          rw [if_pos hstart, if_pos hself, ← ihchildren (h.children hmem)]
          cases node
          rfl
        · have hself : ¬node.span.contains offset = true := by
            rw [Span.contains_iff]
            omega
          have hbelow : (nodesOf node.children).filter (·.span.contains offset) = [] :=
            hnone fun inner hinner => .inr (by have := (h.covers hmem hinner).1; omega)
          rw [if_neg hstart, if_neg hself, hbelow]

/-- What comes after a node in source order is below it or behind it. -/
theorem pairwise_nodesOf (h : Nested tree) :
    (nodesOf tree).Pairwise fun node later =>
      later ∈ nodesOf node.children ∨ node.span.stop ≤ later.span.start := by
  induction tree using forestInduction with
  | nil => exact .nil
  | cons node nodes ihchildren ihnodes =>
      have hmem := head_mem node nodes
      rw [nodesOf_cons]
      refine List.pairwise_cons.mpr ⟨fun later hlater => ?_, List.pairwise_append.mpr
        ⟨ihchildren (h.children hmem), ihnodes h.tail, fun inner hinner later hlater => ?_⟩⟩
      · exact (List.mem_append.mp hlater).imp_right h.stop_le
      · exact .inr (Nat.le_trans (h.covers hmem hinner).2 (h.stop_le hlater))

/-- What is below a node stands beside the name of the node, if the name is a token. -/
theorem beside_name (h : Nested tree) (hnode : node ∈ nodesOf tree) {name : Node}
    (hfind : node.children.find? (·.isName) = some name) (hleaf : name.children = [])
    {inner : Node} (hinner : inner ∈ nodesOf node.children) :
    inner = name ∨ inner.span.stop ≤ name.span.start ∨ name.span.stop ≤ inner.span.start := by
  obtain ⟨child, hchild, hin⟩ := exists_top hinner
  have hcovers : child.span.Covers inner.span := by
    rcases hin with rfl | hin
    · exact .refl _
    · exact (h.children hnode).covers (subset_nodesOf _ hchild) hin
  obtain ⟨-, before, after, hsplit, -⟩ := List.find?_eq_some_iff_append.mp hfind
  have horder := h.siblings.2 node hnode
  rw [hsplit] at hchild
  rw [InOrder, hsplit] at horder
  obtain ⟨-, hafter, hbefore⟩ := List.pairwise_append.mp horder
  rcases List.mem_append.mp hchild with hchild | hchild
  · exact .inr (.inl (Nat.le_trans hcovers.2 (hbefore child hchild name List.mem_cons_self)))
  · rcases List.mem_cons.mp hchild with rfl | hchild
    · rw [hleaf] at hin
      exact .inl (hin.resolve_right List.not_mem_nil)
    · exact .inr (.inr (Nat.le_trans ((List.pairwise_cons.mp hafter).1 child hchild) hcovers.1))

end Nested

/-! ### The order of heads -/

/-- The later head lies in the earlier one, beside its name, or behind it. -/
def Head.Precedes (head later : Head) : Prop :=
  head.span.Covers later.span ∧
      (later.span.stop ≤ head.name.start ∨ head.name.stop ≤ later.span.start) ∨
    head.span.stop ≤ later.span.start

namespace WellFormed

variable {node : Node} {tree : List Node} {head : Head}

/-- A type contains its name. -/
theorem covers_name (h : WellFormed tree) (hhead : head ∈ headsOf tree) :
    head.span.Covers head.name ∧ head.name.start < head.name.stop := by
  obtain ⟨node, hnode, hhead⟩ := mem_headsOf.mp hhead
  obtain ⟨-, hname, hspan⟩ := Node.head?_eq_some_iff.mp hhead
  obtain ⟨name, hmem, hfind, -, -, hlt⟩ := h.named node hnode (Node.isType_of_head? hhead)
  rw [Node.name?, hfind, Option.map_some, Option.some_inj] at hname
  rw [← hspan, ← hname]
  exact ⟨h.inside node hnode name hmem, hlt⟩

/-- A type below another one stands beside the name of the other. -/
theorem precedes_below (h : WellFormed tree) (hnode : node ∈ nodesOf tree)
    (hhead : node.head? = some head) {inner : Node} (hinner : inner ∈ nodesOf node.children)
    {later : Head} (hinnerHead : inner.head? = some later) : head.Precedes later := by
  obtain ⟨-, hname, hspan⟩ := Node.head?_eq_some_iff.mp hhead
  obtain ⟨hkind, -, hinnerSpan⟩ := Node.head?_eq_some_iff.mp hinnerHead
  obtain ⟨name, -, hfind, hother, hleaf, -⟩ := h.named node hnode (Node.isType_of_head? hhead)
  rw [Node.name?, hfind, Option.map_some, Option.some_inj] at hname
  rw [Head.Precedes, ← hspan, ← hinnerSpan, ← hname]
  refine .inl ⟨h.covers hnode hinner, ?_⟩
  rcases h.beside_name hnode hfind hleaf hinner with rfl | hbeside
  · -- The name itself is a token: it declares nothing.
    rw [hother] at hkind
    cases hkind
  · exact hbeside

theorem pairwise_headsOf (h : WellFormed tree) : (headsOf tree).Pairwise Head.Precedes := by
  rw [headsOf, List.pairwise_filterMap]
  refine h.pairwise_nodesOf.imp_of_mem fun {node later} hnode _ horder head hhead head' hhead' => ?_
  rcases horder with hbelow | hbehind
  · exact h.precedes_below hnode hhead hbelow hhead'
  · refine .inr ?_
    rwa [← (Node.head?_eq_some_iff.mp hhead).2.2, ← (Node.head?_eq_some_iff.mp hhead').2.2]

theorem nodup_spans (h : WellFormed tree) : ((headsOf tree).map (·.span)).Nodup := by
  rw [List.Nodup, List.pairwise_map]
  refine h.pairwise_headsOf.imp_of_mem fun {head later} hhead _ hprecedes heq => ?_
  have hname := h.covers_name hhead
  rw [Head.Precedes, ← heq] at hprecedes
  simp only [Span.Covers] at hname hprecedes
  omega

/-- A type contains the name of another one exactly if it contains the other. -/
theorem contains_name_iff (h : WellFormed tree) (hhead : head ∈ headsOf tree) {outer : Head}
    (houter : outer ∈ headsOf tree) :
    outer.span.contains head.name.start = true ↔ outer.span.Covers head.span := by
  have hname := h.covers_name hhead
  have houterName := h.covers_name houter
  have horder := h.pairwise_headsOf
  obtain ⟨before, after, hsplit⟩ := List.append_of_mem hhead
  rw [hsplit] at horder houter
  obtain ⟨-, hafter, hbefore⟩ := List.pairwise_append.mp horder
  rw [Span.contains_iff]
  simp only [Span.Covers] at hname houterName ⊢
  rcases List.mem_append.mp houter with houter | houter
  · have hprecedes := hbefore outer houter head List.mem_cons_self
    simp only [Head.Precedes, Span.Covers] at hprecedes
    omega
  · rcases List.mem_cons.mp houter with rfl | houter
    · omega
    · have hprecedes := (List.pairwise_cons.mp hafter).1 outer houter
      simp only [Head.Precedes, Span.Covers] at hprecedes
      omega

end WellFormed

/-! ### Containing types -/

/-- The kinds of types that contain declarations. -/
def TypeKind.containers : List TypeKind := [.classType, .structType, .interfaceType, .recordType]

theorem TypeKind.hasMembers_iff {kind : TypeKind} :
    kind.hasMembers = true ↔ kind ∈ containers := by
  cases kind <;> decide

namespace Declaration

/-- The byte range of the outer declaration covers that of the inner one. -/
def Contains (outer inner : Declaration) : Prop := outer.span.Covers inner.span

instance (outer inner : Declaration) : Decidable (outer.Contains inner) :=
  inferInstanceAs (Decidable (Span.Covers _ _))

/-- The later declaration lies in the earlier one or behind it. -/
def Precedes (earlier later : Declaration) : Prop :=
  earlier.Contains later ∧ earlier.span ≠ later.span ∨ earlier.span.stop ≤ later.span.start

/-- The innermost of the types that contain a declaration: all the others contain it as well. -/
structure Innermost (declarations : List Declaration) (inner outer : Declaration) : Prop where
  mem : outer ∈ declarations
  kind : outer.kind ∈ TypeKind.containers
  contains : outer.Contains inner
  least : ∀ other ∈ declarations, other.kind ∈ TypeKind.containers → other.Contains inner →
    other.Contains outer

/-- The types that contain a declaration, in source order. -/
def containersOf (declarations : List Declaration) (inner : Declaration) : List Declaration :=
  declarations.filter fun outer => outer.kind.hasMembers && decide (outer.Contains inner)

variable {declarations : List Declaration} {inner : Declaration}

theorem mem_containersOf {outer : Declaration} :
    outer ∈ containersOf declarations inner ↔
      outer ∈ declarations ∧ outer.kind ∈ TypeKind.containers ∧ outer.Contains inner := by
  rw [containersOf, List.mem_filter, Bool.and_eq_true, decide_eq_true_eq,
    TypeKind.hasMembers_iff]

/-- Types around one declaration lie in each other. -/
theorem pairwise_containersOf (horder : declarations.Pairwise Precedes)
    (hinner : inner.span.start < inner.span.stop) :
    (containersOf declarations inner).Pairwise fun outer later =>
      outer.Contains later ∧ outer.span ≠ later.span := by
  refine List.Pairwise.imp_of_mem (fun {outer later} houter hlater hprecedes => ?_)
    (horder.sublist List.filter_sublist)
  obtain ⟨-, -, hcontains⟩ := mem_containersOf.mp houter
  obtain ⟨-, -, hlaterContains⟩ := mem_containersOf.mp hlater
  rcases hprecedes with hlies | hbehind
  · exact hlies
  · -- Nothing lies in two declarations of which one stands behind the other.
    have hstop := hcontains.2
    have hbegin := hlaterContains.1
    omega

theorem innermost_of_getLast? (horder : declarations.Pairwise Precedes)
    (hinner : inner.span.start < inner.span.stop) {outer : Declaration}
    (h : (containersOf declarations inner).getLast? = some outer) :
    Innermost declarations inner outer := by
  obtain ⟨hmem, hkind, hcontains⟩ := mem_containersOf.mp (List.mem_of_getLast? h)
  refine ⟨hmem, hkind, hcontains, fun other hother hotherKind hotherContains => ?_⟩
  have hchain := pairwise_containersOf horder hinner
  obtain ⟨init, hinit⟩ := List.getLast?_eq_some_iff.mp h
  have hotherMem := mem_containersOf.mpr ⟨hother, hotherKind, hotherContains⟩
  rw [hinit] at hchain hotherMem
  rcases List.mem_append.mp hotherMem with hbefore | hlast
  · exact ((List.pairwise_append.mp hchain).2.2 other hbefore outer List.mem_cons_self).1
  · rw [List.mem_singleton.mp hlast]
    exact Span.Covers.refl _

theorem getLast?_containersOf (horder : declarations.Pairwise Precedes)
    (hinner : inner.span.start < inner.span.stop) {outer : Declaration} :
    (containersOf declarations inner).getLast? = some outer ↔
      Innermost declarations inner outer := by
  refine ⟨innermost_of_getLast? horder hinner, fun h => ?_⟩
  have hmem := mem_containersOf.mpr ⟨h.mem, h.kind, h.contains⟩
  cases hlast : (containersOf declarations inner).getLast? with
  | none =>
      rw [List.getLast?_eq_none_iff.mp hlast] at hmem
      cases hmem
  | some last =>
      -- The two types contain each other, so they have the same byte range.
      have hinnermost := innermost_of_getLast? horder hinner hlast
      have hcontains := h.least last hinnermost.mem hinnermost.kind hinnermost.contains
      have hchain := pairwise_containersOf horder hinner
      obtain ⟨init, hinit⟩ := List.getLast?_eq_some_iff.mp hlast
      rw [hinit] at hchain hmem
      rcases List.mem_append.mp hmem with hbefore | hsame
      · obtain ⟨hback, hne⟩ := (List.pairwise_append.mp hchain).2.2 outer hbefore last
          List.mem_cons_self
        exact absurd (hback.antisymm hcontains) hne
      · rw [List.mem_singleton.mp hsame]

end Declaration

/-! ### The declarations of a file -/

namespace SourceFile

/-- What is expected of a file without syntax errors: a well-formed tree, in which the names of
types begin between characters of the text. -/
structure WellFormed (file : SourceFile) : Prop where
  tree : CSharp.WellFormed file.tree
  names : ∀ head ∈ headsOf file.tree, ∃ front back, file.source.toList = front ++ back ∧
    byteSize front = head.name.start

/-- What is expected of every file. Where the text has syntax errors, a type may have no name or an
empty one; but names are tokens, and no two types have the same byte range. -/
structure Orderly (file : SourceFile) : Prop where
  tree : Nested file.tree
  tokens : ∀ node ∈ nodesOf file.tree, node.isType = true →
    ∀ name ∈ node.children.find? (·.isName), name.kind = .other ∧ name.children = []
  distinct : ((headsOf file.tree).map (·.span)).Nodup
  names : ∀ head ∈ headsOf file.tree, ∃ front back, file.source.toList = front ++ back ∧
    byteSize front = head.name.start

variable {file : SourceFile} {declaration : Declaration}

theorem find?_span (distinct : ((headsOf file.tree).map (·.span)).Nodup)
    (hmem : declaration ∈ file.declarations) :
    file.declarations.find? (·.span == declaration.span) = some declaration := by
  have hspans : (file.declarations.map (·.span)).Nodup := by
    rw [file.declarations_eq_map_read, List.map_map]
    rwa [← file.map_head_outlines, List.map_map] at distinct
  cases hfind : file.declarations.find? (·.span == declaration.span) with
  | none => exact absurd (beq_self_eq_true _) (List.find?_eq_none.mp hfind _ hmem)
  | some found =>
      have hfound := List.find?_some hfind
      have hspan : found.span = declaration.span := beq_iff_eq.mp hfound
      rw [List.inj_on_of_nodup_map hspans (List.mem_of_find?_eq_some hfind) hmem hspan]

theorem head?_of_hasMembers (h : CSharp.WellFormed file.tree) {node : Node}
    (hnode : node ∈ nodesOf file.tree) (hmembers : node.hasMembers = true) :
    ∃ head, node.head? = some head := by
  have htype := Node.isType_of_hasMembers hmembers
  obtain ⟨name, -, hfind, -⟩ := h.named node hnode htype
  unfold Node.isType at htype
  split at htype
  · rename_i kind hkind
    exact ⟨⟨kind, name.span, node.span⟩, Node.head?_eq_some_iff.mpr
      ⟨hkind, by rw [Node.name?, hfind]; rfl, rfl⟩⟩
  · cases htype

/-- The node from which a type is found is that of the last declaration around the offset. -/
theorem find?_pathOf (h : CSharp.WellFormed file.tree) (offset : Nat) :
    ((pathOf offset file.tree).reverse.find? (·.hasMembers)).map (·.span) =
      (file.declarations.filter fun d => d.kind.hasMembers && d.span.contains offset).getLast?.map
        (·.span) := by
  have hpath : (pathOf offset file.tree).reverse.find? (·.hasMembers) =
      ((nodesOf file.tree).filter fun node =>
        node.hasMembers && node.span.contains offset).getLast? := by
    rw [h.pathOf_eq_filter, ← List.head?_filter, List.filter_reverse, List.head?_reverse,
      List.filter_filter]
  -- Nodes and heads are chosen alike, and so are heads and declarations.
  have hheads : ((nodesOf file.tree).filter fun node =>
        node.hasMembers && node.span.contains offset).map (·.span) =
      ((headsOf file.tree).filter fun head =>
        head.kind.hasMembers && head.span.contains offset).map (·.span) := by
    rw [headsOf, List.filter_filterMap, List.map_filterMap, ← List.filterMap_eq_map,
      List.filterMap_filter]
    refine List.filterMap_congr fun node hnode => ?_
    cases hhead : node.head? with
    | some head =>
        rw [Node.hasMembers_of_head? hhead, (Node.head?_eq_some_iff.mp hhead).2.2,
          Option.filter_some]
        split <;> simp_all [(Node.head?_eq_some_iff.mp hhead).2.2]
    | none =>
        have hmembers : node.hasMembers = false := by
          rw [← Bool.not_eq_true]
          intro hmembers
          obtain ⟨head, hsome⟩ := head?_of_hasMembers h hnode hmembers
          rw [hhead] at hsome
          cases hsome
        rw [hmembers]
        rfl
  rw [hpath, ← List.getLast?_map, ← List.getLast?_map, hheads, ← file.map_head_outlines,
    file.declarations_eq_map_read, List.filter_map, List.filter_map, List.map_map, List.map_map]
  rfl

/-- The type that is found around a place is the last declaration of a type with members around
it. -/
theorem enclosing?_eq_getLast? (h : CSharp.WellFormed file.tree) (line col : Nat) :
    file.enclosing? line col =
      (offsetOf? file.source.toList line col).bind fun offset =>
        (file.declarations.filter fun d =>
          d.kind.hasMembers && d.span.contains offset).getLast? := by
  rw [enclosing?]
  cases offsetOf? file.source.toList line col with
  | none => rfl
  | some offset =>
      have hspan := find?_pathOf h offset
      change ((pathOf offset file.tree).reverse.find? (·.hasMembers)).bind
        (fun node => file.declarations.find? (·.span == node.span)) = _
      rw [Option.bind_some]
      cases hlast : (file.declarations.filter fun d =>
          d.kind.hasMembers && d.span.contains offset).getLast? with
      | none =>
          rw [hlast, Option.map_none, Option.map_eq_none_iff] at hspan
          rw [hspan]
          rfl
      | some declaration =>
          rw [hlast, Option.map_some, Option.map_eq_some_iff] at hspan
          obtain ⟨node, hnode, hspan⟩ := hspan
          have hmem := (List.mem_filter.mp (List.mem_of_getLast? hlast)).1
          rw [hnode, Option.bind_some, hspan]
          exact find?_span h.nodup_spans hmem

theorem mem_of_enclosing? {line col : Nat} (h : file.enclosing? line col = some declaration) :
    declaration ∈ file.declarations := by
  obtain ⟨offset, -, h⟩ := Option.bind_eq_some_iff.mp h
  obtain ⟨node, -, h⟩ := Option.bind_eq_some_iff.mp h
  exact List.mem_of_find?_eq_some h

namespace Orderly

/-- At the name of a type with members, no node with members is further in. -/
theorem find?_pathOf_name (h : file.Orderly) {node : Node} (hnode : node ∈ nodesOf file.tree)
    (hmembers : node.hasMembers = true) {name : Node}
    (hfind : node.children.find? (·.isName) = some name)
    (hlt : name.span.start < name.span.stop) :
    (pathOf name.span.start file.tree).reverse.find? (·.hasMembers) = some node := by
  obtain ⟨hother, hleaf⟩ := h.tokens node hnode (Node.isType_of_hasMembers hmembers) name hfind
  have hcovers := h.tree.inside node hnode name (List.mem_of_find?_eq_some hfind)
  have hself : (node.hasMembers && node.span.contains name.span.start) = true := by
    rw [hmembers, Bool.true_and, Span.contains_iff]
    exact ⟨hcovers.1, Nat.lt_of_lt_of_le hlt hcovers.2⟩
  have horder := h.tree.pairwise_nodesOf
  obtain ⟨before, after, hsplit⟩ := List.append_of_mem hnode
  rw [hsplit] at horder
  have hafter : after.filter (fun later =>
      later.hasMembers && later.span.contains name.span.start) = [] := by
    refine List.filter_eq_nil_iff.mpr fun later hlater => ?_
    rw [Bool.and_eq_true, Span.contains_iff]
    rintro ⟨hlaterMembers, hcontains⟩
    have hlaterOrder := (List.pairwise_cons.mp (List.pairwise_append.mp horder).2.1).1 later hlater
    rcases hlaterOrder with hbelow | hbehind
    · rcases h.tree.beside_name hnode hfind hleaf hbelow with rfl | hbeside
      · rw [Node.hasMembers, hother] at hlaterMembers
        cases hlaterMembers
      · omega
    · have := hcovers.2
      omega
  rw [h.tree.pathOf_eq_filter, ← List.head?_filter, List.filter_reverse, List.head?_reverse,
    List.filter_filter, hsplit, List.filter_append, List.filter_cons, if_pos hself, hafter,
    List.getLast?_append, List.getLast?_singleton, Option.some_or]

/-- At the place of a declaration with members, unless its name is empty, the declaration itself is
found. -/
theorem enclosing?_of_mem (h : file.Orderly) (hmem : declaration ∈ file.declarations)
    (hkind : declaration.kind.hasMembers = true) (hne : declaration.identifier ≠ "") :
    file.enclosing? declaration.location.line declaration.location.col = some declaration := by
  have hspan := find?_span h.distinct hmem
  obtain ⟨head, hhead, namespaces, parent, hdeclaration⟩ := exists_head hmem
  obtain ⟨front, back, hsource, hstart⟩ := h.names head hhead
  have hoffset : offsetOf? file.source.toList declaration.location.line declaration.location.col =
      some head.name.start := by
    rw [hdeclaration, Head.declaration, ← hstart, hsource]
    exact offsetOf?_ofOffset file.path front back
  subst hdeclaration
  obtain ⟨node, hnode, hnodeHead⟩ := mem_headsOf.mp hhead
  obtain ⟨-, hname, hnodeSpan⟩ := Node.head?_eq_some_iff.mp hnodeHead
  obtain ⟨name, hfind, hnameSpan⟩ := Option.map_eq_some_iff.mp hname
  have hlt : name.span.start < name.span.stop := by
    by_contra hle
    apply hne
    rw [Head.declaration, ← hnameSpan, slice, Nat.sub_eq_zero_of_le (Nat.not_lt.mp hle), takeBytes]
    rfl
  have hpath := h.find?_pathOf_name hnode
    ((Node.hasMembers_of_head? hnodeHead).trans hkind) hfind hlt
  rw [enclosing?, hoffset, ← hnameSpan]
  change ((pathOf name.span.start file.tree).reverse.find? (·.hasMembers)).bind _ = _
  rw [hpath, Option.bind_some, hnodeSpan]
  exact hspan

end Orderly

namespace WellFormed

theorem orderly (h : file.WellFormed) : file.Orderly where
  tree := h.tree.toNested
  tokens node hnode htype name hname := by
    obtain ⟨found, -, hfound, hother, hleaf, -⟩ := h.tree.named node hnode htype
    rw [hfound, Option.mem_some] at hname
    rw [← hname]
    exact ⟨hother, hleaf⟩
  distinct := h.tree.nodup_spans
  names := h.names

theorem pairwise_declarations (h : file.WellFormed) :
    file.declarations.Pairwise Declaration.Precedes := by
  have horder : (headsOf file.tree).Pairwise fun head later =>
      head.span.Covers later.span ∧ head.span ≠ later.span ∨
        head.span.stop ≤ later.span.start := by
    have hspans := h.tree.nodup_spans
    rw [List.Nodup, List.pairwise_map] at hspans
    refine (h.tree.pairwise_headsOf.and hspans).imp fun {head later} hprecedes => ?_
    exact hprecedes.1.imp_left fun hin => ⟨hin.1, hprecedes.2⟩
  rw [← file.map_head_outlines, List.pairwise_map] at horder
  rw [file.declarations_eq_map_read, List.pairwise_map]
  exact horder

/-- The place of a declaration leads to its name, and a declaration contains another one exactly if
it contains the name of the other. -/
theorem exists_offset (h : file.WellFormed) (hmem : declaration ∈ file.declarations) :
    ∃ offset, offsetOf? file.source.toList declaration.location.line declaration.location.col =
        some offset ∧
      ∀ outer ∈ file.declarations,
        outer.span.contains offset = true ↔ outer.Contains declaration := by
  obtain ⟨head, hhead, namespaces, parent, rfl⟩ := exists_head hmem
  refine ⟨head.name.start, ?_, fun outer houter => ?_⟩
  · obtain ⟨front, back, hsource, hstart⟩ := h.names head hhead
    rw [Head.declaration, ← hstart, hsource]
    exact offsetOf?_ofOffset file.path front back
  · obtain ⟨other, hother, namespaces', parent', rfl⟩ := exists_head houter
    exact h.tree.contains_name_iff hhead hother

theorem start_lt_stop (h : file.WellFormed) (hmem : declaration ∈ file.declarations) :
    declaration.span.start < declaration.span.stop := by
  obtain ⟨head, hhead, namespaces, parent, rfl⟩ := exists_head hmem
  obtain ⟨hcovers, hlt⟩ := h.tree.covers_name hhead
  exact Nat.lt_of_le_of_lt hcovers.1 (Nat.lt_of_lt_of_le hlt hcovers.2)

/-- The declarations of a file stand at different places. -/
theorem nodup_positions (h : file.WellFormed) :
    (file.declarations.map fun declaration =>
      (declaration.location.line, declaration.location.col)).Nodup := by
  rw [List.Nodup, List.pairwise_map]
  refine h.pairwise_declarations.imp_of_mem fun {earlier later} hearlier hlater hprecedes
    hplace => ?_
  obtain ⟨hline, hcol⟩ := Prod.mk.inj hplace
  obtain ⟨offset, hoffset, hcontains⟩ := h.exists_offset hearlier
  obtain ⟨offset', hoffset', hcontains'⟩ := h.exists_offset hlater
  rw [hline, hcol, hoffset', Option.some_inj] at hoffset
  subst hoffset
  -- Each of the two contains the name of the other, so they have the same byte range.
  have hback := (hcontains later hlater).mp ((hcontains' later hlater).mpr (Span.Covers.refl _))
  rcases hprecedes with ⟨hcovers, hne⟩ | hbehind
  · exact hne (hcovers.antisymm hback)
  · have hlt := h.start_lt_stop hlater
    have := hback.1
    have := h.start_lt_stop hearlier
    omega

theorem enclosing?_eq (h : file.WellFormed) (hmem : declaration ∈ file.declarations) :
    file.enclosing? declaration.location.line declaration.location.col =
      (Declaration.containersOf file.declarations declaration).getLast? := by
  obtain ⟨offset, hoffset, hcontains⟩ := h.exists_offset hmem
  rw [enclosing?_eq_getLast? h.tree, hoffset, Option.bind_some, Declaration.containersOf]
  congr 1
  refine List.filter_congr fun outer houter => ?_
  rw [Bool.eq_iff_iff, Bool.and_eq_true, Bool.and_eq_true, hcontains outer houter,
    decide_eq_true_eq]

/-- What is found at the place of a declaration is the innermost type around it. -/
theorem enclosing?_eq_some_iff (h : file.WellFormed) (hmem : declaration ∈ file.declarations)
    {outer : Declaration} :
    file.enclosing? declaration.location.line declaration.location.col = some outer ↔
      Declaration.Innermost file.declarations declaration outer := by
  rw [h.enclosing?_eq hmem]
  exact Declaration.getLast?_containersOf h.pairwise_declarations (h.start_lt_stop hmem)

theorem enclosing?_eq_none_iff (h : file.WellFormed) (hmem : declaration ∈ file.declarations) :
    file.enclosing? declaration.location.line declaration.location.col = none ↔
      ∀ outer ∈ file.declarations, outer.kind ∈ TypeKind.containers →
        ¬outer.Contains declaration := by
  rw [h.enclosing?_eq hmem, List.getLast?_eq_none_iff, List.eq_nil_iff_forall_not_mem]
  simp only [Declaration.mem_containersOf, not_and]

/-- Around the place of a declaration with members, the declaration itself is the innermost one. -/
theorem enclosing?_of_mem (h : file.WellFormed) (hmem : declaration ∈ file.declarations)
    (hkind : declaration.kind.hasMembers = true) :
    file.enclosing? declaration.location.line declaration.location.col = some declaration := by
  refine (h.enclosing?_eq_some_iff hmem).mpr
    ⟨hmem, TypeKind.hasMembers_iff.mp hkind, Span.Covers.refl _, ?_⟩
  exact fun other _ _ hcontains => hcontains

end WellFormed

end SourceFile

end ResourceLanguage.CSharp
