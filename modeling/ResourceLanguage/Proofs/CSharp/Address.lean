import Mathlib.Data.List.Basic
import ResourceLanguage.Proofs.CSharp.Tree

/-!
Nodes of a syntax tree by their addresses. An address leads from a node down to one below it, and
what stands on the way decides about the namespaces in force and about the containing types.
-/

namespace ResourceLanguage.CSharp

open ResourceLanguage.Text

/-! ### Addresses -/

/-- The way from a node down to one below it: which child to take at each step. -/
abbrev Address := List Nat

namespace Address

/-- Pre-order: a node comes before all that is below it, and children come one after another. -/
def Before : Address → Address → Prop := List.Lex (· < ·)

/-- The address with one more child in front of the first one on the way. -/
def shift : Address → Address := List.modifyHead (· + 1)

/-- The outer address is passed on the way to the inner one. -/
def Above (outer inner : Address) : Prop := outer <+: inner ∧ outer ≠ inner

instance (outer inner : Address) : Decidable (outer.Above inner) :=
  inferInstanceAs (Decidable (_ ∧ _))

theorem above_cons_iff {index : Nat} {outer inner : Address} :
    Above (index :: outer) (index :: inner) ↔ outer.Above inner := by
  simp [Above]

theorem above_nil_cons (index : Nat) (inner : Address) : Above [] (index :: inner) :=
  ⟨List.nil_prefix, List.cons_ne_nil index inner |>.symm⟩

/-- What is passed on the way through a child is the start or leads through the child too. -/
theorem Above.cases {index : Nat} {outer inner : Address} (h : outer.Above (index :: inner)) :
    outer = [] ∨ ∃ rest : Address, outer = index :: rest ∧ rest.Above inner := by
  cases outer with
  | nil => exact .inl rfl
  | cons first rest =>
      obtain ⟨rfl, -⟩ := List.cons_prefix_cons.mp h.1
      exact .inr ⟨rest, rfl, above_cons_iff.mp h⟩

theorem before_of_above {outer inner : Address} (h : outer.Above inner) : outer.Before inner := by
  induction outer generalizing inner with
  | nil =>
      cases inner with
      | nil => exact absurd rfl h.2
      | cons index inner => exact .nil
  | cons index outer ih =>
      obtain ⟨inner, rfl⟩ := h.1
      exact .cons (ih (above_cons_iff.mp h))

theorem Before.asymm {first second : Address} (h : first.Before second) : ¬second.Before first :=
  List.lex_asymm Nat.lt_asymm h

end Address

namespace Node

/-! ### What a node shows -/

/-- The node above a list of nodes. -/
def root (nodes : List Node) : Node := ⟨.other, ⟨0, 0⟩, false, nodes⟩

def isNamespace (node : Node) : Bool := node.innerName?.isSome || node.laterName?.isSome

/-! ### What stands at an address -/

def at? (node : Node) : Address → Option Node
  | [] => some node
  | index :: address => node.children[index]?.bind fun child => child.at? address

def headAt? (node : Node) (address : Address) : Option Head := (node.at? address).bind head?

/-- The names of the namespaces in force at an address: those of the namespaces on the way, and at
each step those of the children before the one that is taken. -/
def namespacesAt (node : Node) : Address → List Span
  | [] => []
  | index :: address =>
      node.innerName?.toList ++ (node.children.take index).filterMap laterName? ++
        node.children[index]?.elim [] fun child => child.namespacesAt address

/-- The types on the way to an address, outermost first, and the one at the address. -/
def typesAt (node : Node) : Address → List Head
  | [] => node.head?.toList
  | index :: address =>
      node.head?.toList ++ node.children[index]?.elim [] fun child => child.typesAt address

/-- The address of the innermost type on the way to an address. -/
def enclosing? (node : Node) : Address → Option Address
  | [] => none
  | index :: address =>
      match node.children[index]?.bind fun child => child.enclosing? address with
      | some outer => some (index :: outer)
      | none => node.head?.map fun _ => []

mutual

/-- The addresses of a node and of all nodes below it, in pre-order. -/
def addresses : Node → List Address
  | ⟨_, _, _, children⟩ => [] :: addressesOf children

def addressesOf : List Node → List Address
  | [] => []
  | node :: nodes => node.addresses.map (0 :: ·) ++ (addressesOf nodes).map Address.shift

end

/-- The addresses of the types in a node, in pre-order. -/
def typeAddresses (node : Node) : List Address :=
  node.addresses.filter fun address => (node.headAt? address).isSome

/-- No type has a namespace below it. -/
def NamespacesOutside (node : Node) : Prop :=
  ∀ outer inner, outer.Above inner → (node.headAt? outer).isSome = true →
    ¬(node.at? inner).any isNamespace = true

/-! ### All addresses -/

theorem addresses_eq (node : Node) : node.addresses = [] :: addressesOf node.children := by
  cases node
  rfl

theorem mem_addressesOf {nodes : List Node} {address : Address} :
    address ∈ addressesOf nodes ↔
      ∃ index rest node, address = index :: rest ∧ nodes[index]? = some node ∧
        rest ∈ node.addresses := by
  induction nodes generalizing address with
  | nil => simp [addressesOf]
  | cons node nodes ih =>
      rw [addressesOf, List.mem_append, List.mem_map, List.mem_map]
      constructor
      · rintro (⟨rest, hrest, rfl⟩ | ⟨later, hlater, rfl⟩)
        · exact ⟨0, rest, node, rfl, rfl, hrest⟩
        · obtain ⟨index, rest, found, rfl, hfound, hrest⟩ := ih.mp hlater
          exact ⟨index + 1, rest, found, rfl, hfound, hrest⟩
      · rintro ⟨index, rest, found, rfl, hfound, hrest⟩
        cases index with
        | zero =>
            obtain rfl : node = found := Option.some.inj hfound
            exact .inl ⟨rest, hrest, rfl⟩
        | succ index =>
            exact .inr ⟨index :: rest, ih.mpr ⟨index, rest, found, rfl, hfound, hrest⟩, rfl⟩

/-- The addresses of a node are those at which there is a node. -/
theorem mem_addresses {node : Node} {address : Address} :
    address ∈ node.addresses ↔ (node.at? address).isSome = true := by
  induction address generalizing node with
  | nil => simp [addresses_eq, at?]
  | cons index address ih =>
      rw [addresses_eq, List.mem_cons, mem_addressesOf, at?]
      constructor
      · rintro (h | ⟨index', rest, child, heq, hchild, hrest⟩)
        · cases h
        · cases heq
          rw [hchild]
          exact ih.mp hrest
      · intro h
        cases hchild : node.children[index]? with
        | none =>
            rw [hchild] at h
            cases h
        | some child =>
            rw [hchild] at h
            exact .inr ⟨index, address, child, rfl, hchild, ih.mpr h⟩

theorem pairwise_cons {nodes : List Node} (h : (addressesOf nodes).Pairwise Address.Before) :
    ([] :: addressesOf nodes).Pairwise Address.Before := by
  refine List.pairwise_cons.mpr ⟨fun address haddress => ?_, h⟩
  obtain ⟨index, rest, node, rfl, -, -⟩ := mem_addressesOf.mp haddress
  exact .nil

theorem pairwise_addressesOf (nodes : List Node) :
    (addressesOf nodes).Pairwise Address.Before := by
  induction nodes using forestInduction with
  | nil => exact .nil
  | cons node nodes ihchildren ihnodes =>
      rw [addressesOf, addresses_eq]
      refine List.pairwise_append.mpr ⟨?_, ?_, ?_⟩
      · exact (pairwise_cons ihchildren).map _ fun _ _ h => .cons h
      · refine ihnodes.map _ fun first second h => ?_
        cases h with
        | nil => exact .nil
        | cons h => exact .cons h
        | rel h => exact .rel (Nat.succ_lt_succ h)
      · intro first hfirst second hsecond
        obtain ⟨rest, -, rfl⟩ := List.mem_map.mp hfirst
        obtain ⟨later, hlater, rfl⟩ := List.mem_map.mp hsecond
        obtain ⟨index, rest', found, rfl, -, -⟩ := mem_addressesOf.mp hlater
        exact .rel (Nat.succ_pos index)

theorem pairwise_addresses (node : Node) : node.addresses.Pairwise Address.Before := by
  rw [addresses_eq]
  exact pairwise_cons (pairwise_addressesOf node.children)

theorem mem_typeAddresses {node : Node} {address : Address} :
    address ∈ node.typeAddresses ↔ (node.headAt? address).isSome = true := by
  rw [typeAddresses, List.mem_filter, mem_addresses, and_iff_right_iff_imp, headAt?]
  exact Option.isSome_of_isSome_bind

theorem pairwise_typeAddresses (node : Node) : node.typeAddresses.Pairwise Address.Before :=
  (pairwise_addresses node).sublist List.filter_sublist

instance : DecidablePred NamespacesOutside := fun node =>
  decidable_of_iff (∀ outer ∈ node.addresses, ∀ inner ∈ node.addresses, outer.Above inner →
      (node.headAt? outer).isSome = true → ¬(node.at? inner).any isNamespace = true) <| by
    refine ⟨fun h outer inner habove htype hname => ?_, fun h outer _ inner _ => h outer inner⟩
    have houter := (List.mem_filter.mp (mem_typeAddresses.mpr htype)).1
    have hinner := mem_addresses.mpr (Option.isSome_of_any hname)
    exact h outer houter inner hinner habove htype hname

/-! ### The innermost type on the way -/

section Child

variable {node child : Node} {index : Nat}

theorem at?_cons (h : node.children[index]? = some child) (address : Address) :
    node.at? (index :: address) = child.at? address := by
  rw [at?, h, Option.bind_some]

theorem headAt?_cons (h : node.children[index]? = some child) (address : Address) :
    node.headAt? (index :: address) = child.headAt? address := by
  rw [headAt?, headAt?, at?_cons h]

theorem exists_child_of_headAt? {address : Address}
    (h : (node.headAt? (index :: address)).isSome = true) :
    ∃ child, node.children[index]? = some child := by
  cases hchild : node.children[index]? with
  | some child => exact ⟨child, rfl⟩
  | none =>
      rw [headAt?, at?, hchild] at h
      cases h

end Child

/-- The type at the outer address is the innermost one on the way to the inner address. -/
structure Encloses (node : Node) (outer inner : Address) : Prop where
  type : (node.headAt? outer).isSome = true
  above : outer.Above inner
  least : ∀ other, (node.headAt? other).isSome = true → other.Above inner → other <+: outer

theorem Encloses.unique {node : Node} {outer outer' inner : Address} (h : node.Encloses outer inner)
    (h' : node.Encloses outer' inner) : outer = outer' :=
  (h'.least outer h.type h.above).eq_of_length_le (h.least outer' h'.type h'.above).length_le

theorem Encloses.cons {node child : Node} {index : Nat} {outer inner : Address}
    (hchild : node.children[index]? = some child) (h : child.Encloses outer inner) :
    node.Encloses (index :: outer) (index :: inner) := by
  refine ⟨by rw [headAt?_cons hchild]; exact h.type, Address.above_cons_iff.mpr h.above, ?_⟩
  intro other htype habove
  rcases habove.cases with rfl | ⟨rest, rfl, hrest⟩
  · exact List.nil_prefix
  · rw [headAt?_cons hchild] at htype
    exact List.cons_prefix_cons.mpr ⟨rfl, h.least rest htype hrest⟩

/-- What was found on the way to an address is the innermost type, or there is none. -/
def Finds (node : Node) (inner : Address) : Option Address → Prop
  | some outer => node.Encloses outer inner
  | none => ∀ other, other.Above inner → ¬(node.headAt? other).isSome = true

/-- Where no type is below the node on the way, the node itself decides. -/
theorem finds_self {node : Node} {index : Nat} {inner : Address}
    (hbelow : ∀ rest : Address, rest.Above inner → ¬(node.headAt? (index :: rest)).isSome = true) :
    node.Finds (index :: inner) (node.head?.map fun _ => []) := by
  have hnil : node.headAt? [] = node.head? := rfl
  cases hhead : node.head? with
  | some head =>
      refine ⟨by rw [hnil, hhead]; rfl, Address.above_nil_cons index inner,
        fun other htype habove => ?_⟩
      rcases habove.cases with rfl | ⟨rest, rfl, hrest⟩
      · exact List.prefix_refl []
      · exact absurd htype (hbelow rest hrest)
  | none =>
      intro other habove
      rcases habove.cases with rfl | ⟨rest, rfl, hrest⟩
      · rw [hnil, hhead]
        exact Bool.false_ne_true
      · exact hbelow rest hrest

theorem finds_enclosing? (node : Node) (inner : Address) :
    node.Finds inner (node.enclosing? inner) := by
  induction inner generalizing node with
  | nil =>
      intro other habove
      exact absurd (List.prefix_nil.mp habove.1) habove.2
  | cons index inner ih =>
      rw [enclosing?]
      cases hchild : node.children[index]? with
      | none =>
          refine finds_self fun rest _ htype => ?_
          obtain ⟨child, hsome⟩ := exists_child_of_headAt? htype
          rw [hchild] at hsome
          cases hsome
      | some child =>
          have hfinds := ih child
          rw [Option.bind_some]
          cases henclosing : child.enclosing? inner with
          | some outer =>
              rw [henclosing] at hfinds
              exact Encloses.cons hchild hfinds
          | none =>
              rw [henclosing] at hfinds
              refine finds_self fun rest hrest => ?_
              rw [headAt?_cons hchild]
              exact hfinds rest hrest

theorem enclosing?_eq_some_iff {node : Node} {outer inner : Address} :
    node.enclosing? inner = some outer ↔ node.Encloses outer inner := by
  have hfinds := node.finds_enclosing? inner
  cases henclosing : node.enclosing? inner with
  | some found =>
      rw [henclosing] at hfinds
      rw [Option.some_inj]
      exact ⟨fun h => h ▸ hfinds, Encloses.unique hfinds⟩
  | none =>
      rw [henclosing] at hfinds
      constructor
      · intro h
        cases h
      · intro h
        exact absurd h.type (hfinds outer h.above)

/-- The types on the way to a type are those up to the innermost one, and the type itself. -/
theorem typesAt_of_headAt? {node : Node} {address : Address} {head : Head}
    (h : node.headAt? address = some head) :
    node.typesAt address = (node.enclosing? address).elim [] node.typesAt ++ [head] := by
  induction address generalizing node with
  | nil =>
      have hhead : node.head? = some head := h
      rw [typesAt, hhead]
      rfl
  | cons index address ih =>
      obtain ⟨child, hchild⟩ := exists_child_of_headAt? (Option.isSome_of_eq_some h)
      rw [headAt?_cons hchild] at h
      rw [typesAt, enclosing?, hchild, Option.bind_some, Option.elim_some, ih h]
      cases child.enclosing? address with
      | some outer =>
          simp only [Option.elim_some]
          rw [typesAt, hchild, Option.elim_some, List.append_assoc]
      | none =>
          cases hhead : node.head? with
          | none => rfl
          | some outer => simp [typesAt, hhead]

/-! ### Namespaces below types -/

theorem NamespacesOutside.child {node child : Node} {index : Nat} (h : node.NamespacesOutside)
    (hchild : node.children[index]? = some child) : child.NamespacesOutside := by
  intro outer inner habove htype
  rw [← headAt?_cons hchild] at htype
  rw [← at?_cons hchild]
  exact h _ _ (Address.above_cons_iff.mpr habove) htype

theorem namespacesAt_eq_nil {node : Node}
    (h : ∀ address, ¬(node.at? address).any isNamespace = true) (address : Address) :
    node.namespacesAt address = [] := by
  induction address generalizing node with
  | nil => rfl
  | cons index address ih =>
      have hinner : node.innerName? = none := by
        have hself := h []
        simp only [at?, Option.any_some, isNamespace, Bool.or_eq_true, not_or] at hself
        simpa using hself.1
      have hlater : (node.children.take index).filterMap laterName? = [] := by
        refine List.filterMap_eq_nil_iff.mpr fun child hchild => ?_
        obtain ⟨position, hposition⟩ := List.getElem?_of_mem (List.mem_of_mem_take hchild)
        have hchild := h [position]
        rw [at?_cons hposition] at hchild
        simp only [at?, Option.any_some, isNamespace, Bool.or_eq_true, not_or] at hchild
        simpa using hchild.2
      rw [namespacesAt, hinner, hlater]
      cases hchild : node.children[index]? with
      | none => rfl
      | some child =>
          refine ih fun rest => ?_
          rw [← at?_cons hchild]
          exact h (index :: rest)

/-- Below a type the namespaces in force stay as they are, if no namespace is below it. -/
theorem namespacesAt_of_above {node : Node} (houtside : node.NamespacesOutside)
    {outer inner : Address} (htype : (node.headAt? outer).isSome = true)
    (habove : outer.Above inner) : node.namespacesAt inner = node.namespacesAt outer := by
  induction inner generalizing node outer with
  | nil => exact absurd (List.prefix_nil.mp habove.1) habove.2
  | cons index inner ih =>
      rcases habove.cases with rfl | ⟨rest, rfl, hrest⟩
      · refine namespacesAt_eq_nil (fun address => ?_) _
        cases address with
        | nil =>
            obtain ⟨head, hhead⟩ := Option.isSome_iff_exists.mp htype
            have hkind : node.kind = .type head.kind := (head?_eq_some_iff.mp hhead).1
            simp [at?, isNamespace, innerName?, laterName?, hkind]
        | cons first rest => exact houtside [] _ (Address.above_nil_cons first rest) htype
      · obtain ⟨child, hchild⟩ := exists_child_of_headAt? htype
        rw [headAt?_cons hchild] at htype
        rw [namespacesAt, namespacesAt, hchild, Option.elim_some, Option.elim_some,
          ih (houtside.child hchild) htype hrest]

end Node

end ResourceLanguage.CSharp
