import Mathlib.Data.List.Forall2
import ResourceLanguage.Proofs.CSharp.Address
import ResourceLanguage.Proofs.CSharp.Outline

/-!
The declarations of a syntax tree by the addresses of its types. Main statement: there is one
declaration for each type, in pre-order, with the innermost type around it as its parent, and its
qualified name has the namespaces in force and the types on the way to it.
-/

namespace ResourceLanguage.CSharp

open ResourceLanguage.Text

namespace Node

/-! ### The addresses of types -/

theorem typeAddresses_eq (node : Node) :
    node.typeAddresses =
      (node.head?.map fun _ => ([] : Address)).toList ++ (root node.children).typeAddresses := by
  have hchildren : (addressesOf node.children).filter
        (fun address => (node.headAt? address).isSome) =
      (addressesOf node.children).filter
        fun address => ((root node.children).headAt? address).isSome := by
    refine List.filter_congr fun address haddress => ?_
    obtain ⟨index, rest, child, rfl, -, -⟩ := mem_addressesOf.mp haddress
    rfl
  have hother : (root node.children).typeAddresses = (addressesOf node.children).filter
      fun address => ((root node.children).headAt? address).isSome := rfl
  rw [hother, ← hchildren, typeAddresses, addresses_eq, List.filter_cons]
  cases hhead : node.head? with
  | none => simp [headAt?, at?, hhead]
  | some head => simp [headAt?, at?, hhead]

section Cons

variable (node : Node) (nodes : List Node) (address : Address)

theorem headAt?_shift :
    (root (node :: nodes)).headAt? address.shift = (root nodes).headAt? address := by
  cases address <;> rfl

theorem typeAddresses_cons :
    (root (node :: nodes)).typeAddresses =
      node.typeAddresses.map (0 :: ·) ++ (root nodes).typeAddresses.map Address.shift := by
  have hall : (root (node :: nodes)).typeAddresses =
      (node.addresses.map (0 :: ·) ++ (addressesOf nodes).map Address.shift).filter
        fun address => ((root (node :: nodes)).headAt? address).isSome := rfl
  rw [hall, List.filter_append, List.filter_map, List.filter_map]
  simp only [Function.comp_def, headAt?_shift]
  rfl

theorem enclosing?_zero_cons :
    (root (node :: nodes)).enclosing? (0 :: address) = (node.enclosing? address).map (0 :: ·) := by
  have hchild : (root (node :: nodes)).children[0]? = some node := rfl
  rw [enclosing?, hchild, Option.bind_some]
  cases node.enclosing? address <;> rfl

theorem enclosing?_shift :
    (root (node :: nodes)).enclosing? address.shift =
      ((root nodes).enclosing? address).map Address.shift := by
  cases address with
  | nil => rfl
  | cons index rest =>
      have hchild : (root (node :: nodes)).children[index + 1]? = (root nodes).children[index]? :=
        rfl
      change (root (node :: nodes)).enclosing? ((index + 1) :: rest) = _
      rw [enclosing?, enclosing?, hchild]
      cases (root nodes).children[index]?.bind fun child => child.enclosing? rest <;> rfl

theorem namespacesAt_shift (index : Nat) (rest : Address) :
    (root (node :: nodes)).namespacesAt ((index + 1) :: rest) =
      node.laterName?.toList ++ (root nodes).namespacesAt (index :: rest) := by
  rw [namespacesAt, namespacesAt]
  cases hlater : node.laterName? <;> simp [root, innerName?, hlater]

end Cons

section Children

variable (node : Node) (index : Nat) (rest : Address)

theorem enclosing?_eq_or :
    node.enclosing? (index :: rest) =
      ((root node.children).enclosing? (index :: rest)).or (node.head?.map fun _ => []) := by
  rw [enclosing?, enclosing?]
  have hchildren : (root node.children).children = node.children := rfl
  rw [hchildren]
  cases node.children[index]?.bind fun child => child.enclosing? rest <;> rfl

theorem namespacesAt_eq_append :
    node.namespacesAt (index :: rest) =
      node.innerName?.toList ++ (root node.children).namespacesAt (index :: rest) := by
  rw [namespacesAt, namespacesAt, List.append_assoc]
  rfl

end Children

/-! ### Outlines at their addresses -/

/-- The outline says what the tree shows at the address, if the node itself stands in the namespaces
`names` and in the type with index `parent`, and if its first type has index `next`. -/
structure Fits (node : Node) (names : List Span) (parent : Option Nat) (next : Nat)
    (outline : Outline) (address : Address) : Prop where
  head : node.headAt? address = some outline.toHead
  namespaces : outline.namespaces = names ++ node.namespacesAt address
  outermost : node.enclosing? address = none → outline.parent = parent
  nested : ∀ outer, node.enclosing? address = some outer →
    ∃ position, node.typeAddresses[position]? = some outer ∧
      outline.parent = some (next + position)

namespace Fits

variable {names : List Span} {parent : Option Nat} {next : Nat} {outline : Outline}
  {address : Address}

/-- What fits below a node that declares no type fits the node too. -/
theorem ofChildren {node : Node} (hhead : node.head? = none)
    (h : (root node.children).Fits (names ++ node.innerName?.toList) parent next outline address) :
    node.Fits names parent next outline address := by
  cases address with
  | nil => exact absurd h.head (by simp [headAt?, at?, head?, root])
  | cons index rest =>
      have htypes : node.typeAddresses = (root node.children).typeAddresses := by
        rw [typeAddresses_eq, hhead]
        rfl
      have henclosing : node.enclosing? (index :: rest) =
          (root node.children).enclosing? (index :: rest) := by
        rw [enclosing?_eq_or, hhead, Option.map_none, Option.or_none]
      refine ⟨h.head, ?_, fun hnone => h.outermost (henclosing.symm.trans hnone),
        fun outer houter => ?_⟩
      · rw [h.namespaces, node.namespacesAt_eq_append, List.append_assoc]
      · rw [htypes]
        exact h.nested outer (henclosing.symm.trans houter)

/-- What fits below a node that declares a type has that type around it. -/
theorem ofMembers {node : Node} {head : Head} (hhead : node.head? = some head)
    (h : (root node.children).Fits (names ++ node.innerName?.toList) (some next) (next + 1) outline
      address) :
    node.Fits names parent next outline address := by
  cases address with
  | nil => exact absurd h.head (by simp [headAt?, at?, head?, root])
  | cons index rest =>
      have htypes : node.typeAddresses = [] :: (root node.children).typeAddresses := by
        rw [typeAddresses_eq, hhead]
        rfl
      have henclosing : node.enclosing? (index :: rest) =
          ((root node.children).enclosing? (index :: rest)).or (some []) := by
        rw [enclosing?_eq_or, hhead, Option.map_some]
      refine ⟨h.head, ?_, fun hnone => ?_, fun outer houter => ?_⟩
      · rw [h.namespaces, node.namespacesAt_eq_append, List.append_assoc]
      · rw [henclosing] at hnone
        cases (Option.or_eq_none_iff.mp hnone).2
      · rw [htypes]
        rw [henclosing] at houter
        cases hinner : (root node.children).enclosing? (index :: rest) with
        | none =>
            -- The type itself is the innermost one.
            rw [hinner, Option.none_or, Option.some_inj] at houter
            exact ⟨0, congrArg some houter, h.outermost hinner⟩
        | some inner =>
            rw [hinner, Option.some_or, Option.some_inj] at houter
            subst houter
            obtain ⟨position, hposition, hparent⟩ := h.nested inner hinner
            refine ⟨position + 1, hposition, ?_⟩
            rw [hparent, Nat.add_right_comm, Nat.add_assoc]

theorem ofFirst {node : Node} {nodes : List Node}
    (h : node.Fits names parent next outline address) :
    (root (node :: nodes)).Fits names parent next outline (0 :: address) := by
  have henclosing := enclosing?_zero_cons node nodes address
  refine ⟨h.head, ?_, fun hnone => ?_, fun outer houter => ?_⟩
  · rw [h.namespaces]
    rfl
  · rw [henclosing, Option.map_eq_none_iff] at hnone
    exact h.outermost hnone
  · rw [henclosing, Option.map_eq_some_iff] at houter
    obtain ⟨inner, hinner, rfl⟩ := houter
    obtain ⟨position, hposition, hparent⟩ := h.nested inner hinner
    refine ⟨position, ?_, hparent⟩
    rw [typeAddresses_cons, List.getElem?_append_left, List.getElem?_map, hposition]
    · rfl
    · rw [List.length_map]
      exact (List.getElem?_eq_some_iff.mp hposition).1

theorem ofLater {node : Node} {nodes : List Node}
    (h : (root nodes).Fits (names ++ node.laterName?.toList) parent
      (next + node.typeAddresses.length) outline address) :
    (root (node :: nodes)).Fits names parent next outline address.shift := by
  have henclosing := enclosing?_shift node nodes address
  refine ⟨?_, ?_, fun hnone => ?_, fun outer houter => ?_⟩
  · rw [headAt?_shift]
    exact h.head
  · cases address with
    | nil => exact absurd h.head (by simp [headAt?, at?, head?, root])
    | cons index rest =>
        rw [h.namespaces, List.append_assoc]
        exact congrArg (names ++ ·) (namespacesAt_shift node nodes index rest).symm
  · rw [henclosing, Option.map_eq_none_iff] at hnone
    exact h.outermost hnone
  · rw [henclosing, Option.map_eq_some_iff] at houter
    obtain ⟨inner, hinner, rfl⟩ := houter
    obtain ⟨position, hposition, hparent⟩ := h.nested inner hinner
    refine ⟨node.typeAddresses.length + position, ?_, ?_⟩
    · rw [typeAddresses_cons, List.getElem?_append_right]
      · simp [hposition]
      · simp
    · rw [hparent, Nat.add_assoc]

end Fits

theorem fits_outlinesOf (names : List Span) (parent : Option Nat) (next : Nat) (nodes : List Node) :
    List.Forall₂ ((root nodes).Fits names parent next) (outlinesOf names parent next nodes)
      (root nodes).typeAddresses := by
  induction nodes using forestInduction generalizing names parent next with
  | nil => exact .nil
  | cons node nodes ihchildren ihnodes =>
      have hnode : List.Forall₂ (node.Fits names parent next) (node.outlines names parent next)
          node.typeAddresses := by
        cases hhead : node.head? with
        | none =>
            rw [outlines_of_none _ _ _ hhead, typeAddresses_eq, hhead]
            exact (ihchildren _ parent next).imp fun _ _ => .ofChildren hhead
        | some head =>
            rw [outlines_of_head _ _ _ hhead, typeAddresses_eq, hhead]
            refine .cons ⟨hhead, (List.append_nil names).symm, fun _ => rfl, ?_⟩ ?_
            · intro outer houter
              cases houter
            · exact (ihchildren _ (some next) (next + 1)).imp fun _ _ => .ofMembers hhead
      rw [outlinesOf, typeAddresses_cons, hnode.length_eq]
      refine List.rel_append ?_ ?_
      · exact List.forall₂_map_right_iff.mpr (hnode.imp fun _ _ => .ofFirst)
      · refine List.forall₂_map_right_iff.mpr ?_
        exact (ihnodes _ parent _).imp fun _ _ => .ofLater

/-! ### Places among the types -/

section Order

variable {node : Node} {index index' : Nat} {outer inner : Address}

theorem nodup_typeAddresses (node : Node) : node.typeAddresses.Nodup := by
  refine (pairwise_typeAddresses node).imp fun {first second} hbefore heq => ?_
  rw [heq] at hbefore
  exact hbefore.asymm hbefore

theorem index_inj (h : node.typeAddresses[index]? = some outer)
    (h' : node.typeAddresses[index']? = some outer) : index = index' :=
  (List.getElem?_inj (List.getElem?_eq_some_iff.mp h).1 (nodup_typeAddresses node)).mp
    (h.trans h'.symm)

/-- A type that is passed on the way to another one comes before it. -/
theorem index_lt_of_above (houter : node.typeAddresses[index]? = some outer)
    (hinner : node.typeAddresses[index']? = some inner) (habove : outer.Above inner) :
    index < index' := by
  obtain ⟨hlt, rfl⟩ := List.getElem?_eq_some_iff.mp houter
  obtain ⟨hlt', rfl⟩ := List.getElem?_eq_some_iff.mp hinner
  rcases Nat.lt_trichotomy index index' with hless | rfl | hgreater
  · exact hless
  · exact absurd rfl habove.2
  · have hbefore := List.pairwise_iff_getElem.mp (pairwise_typeAddresses node) index' index hlt' hlt
      hgreater
    exact absurd (Address.before_of_above habove) hbefore.asymm

theorem Fits.parent_eq_some_iff {outline : Outline} (h : node.Fits [] none 0 outline inner) :
    outline.parent = some index ↔
      ∃ outer, node.typeAddresses[index]? = some outer ∧ node.Encloses outer inner := by
  cases henclosing : node.enclosing? inner with
  | none =>
      rw [h.outermost henclosing]
      constructor
      · intro hnone
        cases hnone
      · rintro ⟨outer, -, hencloses⟩
        rw [enclosing?_eq_some_iff.mpr hencloses] at henclosing
        cases henclosing
  | some found =>
      obtain ⟨position, hposition, hparent⟩ := h.nested found henclosing
      have hencloses := enclosing?_eq_some_iff.mp henclosing
      rw [hparent, Option.some_inj, Nat.zero_add]
      constructor
      · rintro rfl
        exact ⟨found, hposition, hencloses⟩
      · rintro ⟨outer, houter, hother⟩
        rw [hother.unique hencloses] at houter
        exact index_inj hposition houter

end Order

end Node

/-! ### Declarations at their addresses -/

/-- The name of the type that a head declares, as it stands in the text. -/
def Head.identifier (text : List Char) (head : Head) : String :=
  String.ofList ((slice text head.name).dropWhile (· == '@'))

/-- What a head says about its declaration: kind, name, place and byte range. -/
def Head.shape (file : String) (text : List Char) (head : Head) :
    TypeKind × String × Location × Span :=
  (head.kind, head.identifier text, .ofOffset file text head.name.start, head.span)

def Declaration.shape (declaration : Declaration) : TypeKind × String × Location × Span :=
  (declaration.kind, declaration.identifier, declaration.location, declaration.span)

section Declarations

variable {nodes : List Node} {index : Nat} {address : Address}

theorem exists_outline (h : (Node.root nodes).typeAddresses[index]? = some address) :
    ∃ outline, (outlinesOf [] none 0 nodes)[index]? = some outline ∧
      (Node.root nodes).Fits [] none 0 outline address := by
  have hfits := Node.fits_outlinesOf [] none 0 nodes
  obtain ⟨hlt, rfl⟩ := List.getElem?_eq_some_iff.mp h
  have hlt' : index < (outlinesOf [] none 0 nodes).length := hfits.length_eq ▸ hlt
  exact ⟨_, List.getElem?_eq_getElem hlt', hfits.get hlt' hlt⟩

theorem getElem?_declarationsOf (file : String) (text : List Char) {outline : Outline}
    (h : (outlinesOf [] none 0 nodes)[index]? = some outline) :
    (declarationsOf file text [] none 0 nodes)[index]? = some (outline.read file text) := by
  have hread := declarationsOf_eq_map_read file text [] none 0 nodes
  rw [List.foldl_nil] at hread
  rw [hread, List.getElem?_map, h, Option.map_some]

/-- Walking up from parent to parent meets the types on the way to an address. -/
theorem identifierPath_eq_typesAt (file : String) (text : List Char)
    (h : (Node.root nodes).typeAddresses[index]? = some address) :
    identifierPath (declarationsOf file text [] none 0 nodes) index =
      ((Node.root nodes).typesAt address).map (·.identifier text) := by
  induction index using Nat.strongRecOn generalizing address with
  | ind index ih =>
      obtain ⟨outline, houtline, hfits⟩ := exists_outline h
      have hread : (outline.read file text).parent = outline.parent := rfl
      rw [identifierPath, getElem?_declarationsOf file text houtline,
        Node.typesAt_of_headAt? hfits.head]
      simp only [hread]
      cases henclosing : (Node.root nodes).enclosing? address with
      | none =>
          rw [hfits.outermost henclosing]
          rfl
      | some outer =>
          obtain ⟨position, hposition, hparent⟩ := hfits.nested outer henclosing
          have hlt : 0 + position < index := by
            rw [Nat.zero_add]
            exact Node.index_lt_of_above hposition h
              (Node.enclosing?_eq_some_iff.mp henclosing).above
          simp only [hparent, Nat.zero_add] at hlt ⊢
          rw [if_pos hlt, ih position hlt hposition, Option.elim_some, List.map_append]
          rfl

/-- The parts of the qualified name of the type at an address: the names of the namespaces in force,
without empty ones, and those of the types on the way. -/
def Node.qualifiersAt (root : Node) (text : List Char) (address : Address) : List String :=
  (namesIn text (root.namespacesAt address)).map String.ofList ++
    (root.typesAt address).map (·.identifier text)

theorem Node.qualifiersAt_ne_nil {root : Node} (text : List Char)
    (h : (root.headAt? address).isSome = true) : root.qualifiersAt text address ≠ [] := by
  obtain ⟨head, hhead⟩ := Option.isSome_iff_exists.mp h
  rw [qualifiersAt, typesAt_of_headAt? hhead]
  simp

/-- Where no namespace is below a type, a nested type has one part more than the type around it. -/
theorem Node.qualifiersAt_of_encloses {root : Node} (text : List Char)
    (houtside : root.NamespacesOutside) {around : Address} (h : root.Encloses around address)
    {head : Head} (hhead : root.headAt? address = some head) :
    root.qualifiersAt text address = root.qualifiersAt text around ++ [head.identifier text] := by
  have htypes := typesAt_of_headAt? hhead
  rw [enclosing?_eq_some_iff.mpr h, Option.elim_some] at htypes
  rw [qualifiersAt, qualifiersAt, namespacesAt_of_above houtside h.type h.above, htypes,
    List.map_append, List.append_assoc]
  rfl

theorem qualifiedName_eq_intercalate (file : String) (text : List Char)
    (h : (Node.root nodes).typeAddresses[index]? = some address) :
    qualifiedName (declarationsOf file text [] none 0 nodes) index =
      ".".intercalate ((Node.root nodes).qualifiersAt text address) := by
  obtain ⟨outline, houtline, hfits⟩ := exists_outline h
  rw [qualifiedName, getElem?_declarationsOf file text houtline]
  simp only [identifierPath_eq_typesAt file text h]
  rw [Outline.read, foldl_enterNamespace, List.nil_append, hfits.namespaces, List.nil_append]
  rfl

/-- The declaration with some index is that of the type at some address. -/
structure Node.Records (root : Node) (file : String) (text : List Char)
    (declarations : List Declaration) (index : Nat) (address : Address)
    (declaration : Declaration) : Prop where
  declared : declarations[index]? = some declaration
  shape : (root.headAt? address).map (·.shape file text) = some declaration.shape
  parent : ∀ outer, declaration.parent = some outer ↔
    ∃ around, root.typeAddresses[outer]? = some around ∧ root.Encloses around address
  parent_lt : ∀ outer, declaration.parent = some outer → outer < index
  name : qualifiedName declarations index = ".".intercalate (root.qualifiersAt text address)
  nested : root.NamespacesOutside → ∀ outer, declaration.parent = some outer →
    qualifiedName declarations index =
      qualifiedName declarations outer ++ "." ++ declaration.identifier

/-- There is one declaration for each type of a tree, in pre-order. Its parent is the declaration of
the innermost type around it, which comes earlier. Its qualified name has the names of the
namespaces in force, the types around it and its own name, and where no namespace is below a type
it is that of the parent and the name. -/
theorem declarationsOf_records (file : String) (text : List Char) (nodes : List Node) :
    let root := Node.root nodes
    let declarations := declarationsOf file text [] none 0 nodes
    declarations.length = root.typeAddresses.length ∧
    root.typeAddresses.Pairwise Address.Before ∧
    (∀ address, address ∈ root.typeAddresses ↔ (root.headAt? address).isSome = true) ∧
    ∀ index address, root.typeAddresses[index]? = some address →
      ∃ declaration, root.Records file text declarations index address declaration := by
  intro root declarations
  refine ⟨?_, Node.pairwise_typeAddresses root, fun _ => Node.mem_typeAddresses,
    fun index address h => ?_⟩
  · have hread := declarationsOf_eq_map_read file text [] none 0 nodes
    rw [List.foldl_nil] at hread
    change (declarationsOf file text [] none 0 nodes).length = _
    rw [hread, List.length_map, (Node.fits_outlinesOf [] none 0 nodes).length_eq]
  · obtain ⟨outline, houtline, hfits⟩ := exists_outline h
    have hdeclared := getElem?_declarationsOf file text houtline
    have hname := qualifiedName_eq_intercalate file text h
    refine ⟨outline.read file text, hdeclared, by rw [hfits.head]; rfl,
      fun outer => hfits.parent_eq_some_iff, fun outer houter => ?_, hname,
      fun houtside outer houter => ?_⟩
    · obtain ⟨around, haround, hencloses⟩ := hfits.parent_eq_some_iff.mp houter
      exact Node.index_lt_of_above haround h hencloses.above
    · obtain ⟨around, haround, hencloses⟩ := hfits.parent_eq_some_iff.mp houter
      rw [hname, qualifiedName_eq_intercalate file text haround,
        Node.qualifiersAt_of_encloses text houtside hencloses hfits.head,
        String.intercalate_append_of_ne_nil (Node.qualifiersAt_ne_nil text hencloses.type)
          (List.cons_ne_nil _ _), String.intercalate_singleton]
      rfl

/-- A type in a type, below a namespace that applies to all after it and one with children. -/
theorem declarationsOf_records_nested :
    let text := "A B.C D E".toList
    let name (start stop : Nat) : Node := ⟨.other, ⟨start, stop⟩, true, []⟩
    let nodes : List Node :=
      [⟨.namespaceFile, ⟨0, 1⟩, false, [name 0 1]⟩,
        ⟨.other, ⟨2, 9⟩, false, [⟨.namespaceBlock, ⟨2, 9⟩, false, [name 2 5,
          ⟨.type .classType, ⟨6, 9⟩, false, [name 6 7,
            ⟨.other, ⟨8, 9⟩, false, [⟨.type .structType, ⟨8, 9⟩, false, [name 8 9]⟩]⟩]⟩]⟩]⟩]
    let declarations := declarationsOf "A.cs" text [] none 0 nodes
    (Node.root nodes).NamespacesOutside ∧
      (Node.root nodes).typeAddresses[1]? = some [1, 0, 1, 1, 0] ∧
      ∃ declaration, declarations[1]? = some declaration ∧ declaration.parent = some 0 ∧
        qualifiedName declarations 0 = "A.B.C.D" ∧
        qualifiedName declarations 1 = qualifiedName declarations 0 ++ "." ++ "E" := by
  intro text name nodes declarations
  have houtside : (Node.root nodes).NamespacesOutside := by decide +kernel
  have haddress : (Node.root nodes).typeAddresses[1]? = some [1, 0, 1, 1, 0] := by decide +kernel
  obtain ⟨-, -, -, hrecords⟩ := declarationsOf_records "A.cs" text nodes
  obtain ⟨declaration, hrecord⟩ := hrecords 1 _ haddress
  have hfound : declarations[1]? = some ⟨.structType, "E", ⟨"A.cs", 1, 9, "A B.C D E"⟩,
      ["A", "B.C"], some 0, ⟨8, 9⟩⟩ := by decide +kernel
  obtain rfl := Option.some.inj (hrecord.declared.symm.trans hfound)
  exact ⟨houtside, haddress, _, hfound, rfl, by decide +kernel, hrecord.nested houtside 0 rfl⟩

end Declarations

end ResourceLanguage.CSharp
