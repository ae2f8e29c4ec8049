import ResourceLanguage.Proofs.ActiveCode.Crossing
import ResourceLanguage.Proofs.CSharp.Extent

/-!
The declarations of a whole text and of its active code. The tree is that of the active code, and
names and places are read off the whole text. Whatever the grammar, both texts have the same
declarations, and the names of types and their places agree. The name of a namespace agrees unless a
directive begins inside it.
-/

namespace ResourceLanguage.CSharp

open ResourceLanguage.Text

/-! ### Names of namespaces -/

/-- The names that stand in some byte ranges, without white space, and without empty ones. -/
def namesIn (text : List Char) (names : List Span) : List (List Char) :=
  (names.map fun name => visible (slice text name)).filter fun cs => !cs.isEmpty

theorem foldl_enterNamespace (text : List Char) (names : List Span) (outer : List String) :
    names.foldl (enterNamespace text) outer = outer ++ (namesIn text names).map String.ofList := by
  induction names generalizing outer with
  | nil => simp [namesIn]
  | cons name names ih =>
      have henter : enterNamespace text outer name =
          if (visible (slice text name)).isEmpty then outer
          else outer ++ [String.ofList (visible (slice text name))] := rfl
      have hnames : namesIn text (name :: names) =
          if !(visible (slice text name)).isEmpty then
            visible (slice text name) :: namesIn text names
          else namesIn text names := List.filter_cons
      rw [List.foldl_cons, ih, henter, hnames]
      cases (visible (slice text name)).isEmpty with
      | true => rfl
      | false => exact List.append_assoc outer _ _

theorem length_intercalate_dot (names : List (List Char)) :
    (".".intercalate (names.map String.ofList)).length =
      names.flatten.length + (names.length - 1) := by
  induction names with
  | nil => rfl
  | cons name names ih =>
      cases names with
      | nil => simp [String.intercalate_singleton]
      | cons next names =>
          have hdot : ".".length = 1 := rfl
          rw [List.map_cons, List.map_cons, String.intercalate_cons_cons, ← List.map_cons,
            String.length_append, String.length_append, ih, String.length_ofList, hdot]
          simp only [List.flatten_cons, List.length_append, List.length_cons]
          omega

theorem eq_of_length_flatMap_eq {names : List Span} {few many : Span → List Char}
    (hsub : ∀ name ∈ names, (few name).Sublist (many name)) :
    (names.flatMap few).length ≤ (names.flatMap many).length ∧
      ((names.flatMap many).length ≤ (names.flatMap few).length →
        ∀ name ∈ names, few name = many name) := by
  induction names with
  | nil => exact ⟨Nat.le_refl _, fun _ name hname => absurd hname List.not_mem_nil⟩
  | cons name names ih =>
      obtain ⟨hname, hnames⟩ := List.forall_mem_cons.mp hsub
      obtain ⟨hle, heq⟩ := ih hnames
      have hlength := hname.length_le
      simp only [List.flatMap_cons, List.length_append]
      refine ⟨by omega, fun hge => List.forall_mem_cons.mpr ⟨?_, heq (by omega)⟩⟩
      exact hname.eq_of_length_le (by omega)

/-- Where namespaces show less in one text, a name inside them is the same only if nothing is
missing. -/
theorem eq_of_intercalate_eq {few many : List Char} {names : List Span} {inner : List String}
    (hsub : ∀ name ∈ names, (visible (slice few name)).Sublist (visible (slice many name)))
    (h : ".".intercalate (names.foldl (enterNamespace many) [] ++ inner) =
      ".".intercalate (names.foldl (enterNamespace few) [] ++ inner)) :
    ∀ name ∈ names, visible (slice many name) = visible (slice few name) := by
  have hflatten (text : List Char) : (namesIn text names).flatten =
      names.flatMap fun name => visible (slice text name) := by
    rw [namesIn, List.flatten_filter_not_isEmpty]
    rfl
  have hinner : inner = (inner.map String.toList).map String.ofList := by simp
  have hfewer : (namesIn few names).length ≤ (namesIn many names).length := by
    rw [namesIn, namesIn, ← List.countP_eq_length_filter, ← List.countP_eq_length_filter,
      List.countP_map, List.countP_map]
    refine List.countP_mono_left fun name hname hfew => ?_
    have hlength := (hsub name hname).length_le
    simp only [Function.comp_apply, Bool.not_eq_true', List.isEmpty_eq_false_iff,
      ← List.length_pos_iff] at hfew ⊢
    omega
  obtain ⟨hle, heq⟩ := eq_of_length_flatMap_eq hsub
  have hlength := congrArg String.length h
  rw [foldl_enterNamespace, foldl_enterNamespace, List.nil_append, List.nil_append, hinner,
    ← List.map_append, ← List.map_append, length_intercalate_dot, length_intercalate_dot,
    List.flatten_append, List.flatten_append, hflatten, hflatten] at hlength
  simp only [List.length_append] at hlength
  intro name hname
  exact (heq (by omega) name hname).symm

/-! ### The declarations of the whole text and of the active code -/

/-- A declaration as it would be in the global namespace. -/
def Declaration.unqualified (declaration : Declaration) : Declaration :=
  { declaration with namespaces := [] }

theorem identifierPath_congr {declarations others : List Declaration}
    (h : declarations.map (·.unqualified) = others.map (·.unqualified)) (index : Nat) :
    identifierPath declarations index = identifierPath others index := by
  induction index using Nat.strongRecOn with
  | ind index ih =>
      have hindex := congrArg (·[index]?) h
      simp only [List.getElem?_map] at hindex
      rw [identifierPath, identifierPath]
      cases hfound : declarations[index]? with
      | none =>
          rw [hfound, Option.map_none, eq_comm, Option.map_eq_none_iff] at hindex
          rw [hindex]
      | some declaration =>
          rw [hfound, Option.map_some, eq_comm, Option.map_eq_some_iff] at hindex
          obtain ⟨other, hother, hsame⟩ := hindex
          obtain ⟨-, hname, -, -, hparent, -⟩ := Declaration.mk.inj hsame
          simp only [hother, hparent, hname]
          cases declaration.parent with
          | none => rfl
          | some parent =>
              by_cases hlt : parent < index
              · simp only [if_pos hlt, ih parent hlt]
              · simp only [if_neg hlt]

namespace SourceFile

section Grammar

variable [Grammar] {path source : String} {symbols : Symbols} {outline : Outline}

theorem tree_parse (path source : String) (symbols : Symbols) :
    (parse path source symbols).tree = Grammar.tree (activeCode source.toList symbols) := rfl

theorem declarations_activeSource (path source : String) (symbols : Symbols) :
    (parse path (activeSource source symbols) []).declarations =
      (parse path source symbols).outlines.map
        (·.read path (activeCode source.toList symbols)) := by
  have htree : (parse path (activeSource source symbols) []).tree =
      (parse path source symbols).tree := by
    rw [tree_parse, tree_parse, toList_activeSource, activeCode_activeCode]
  rw [declarations_eq_map_read, outlines, outlines, htree,
    show (parse path (activeSource source symbols) []).source = activeSource source symbols
      from rfl, toList_activeSource]
  rfl

variable
  (readable : Readable (activeCode source.toList symbols) (parse path source symbols).tree)

include readable

/-- Types have the same names at the same places in both texts. -/
theorem unqualified_read (h : outline ∈ (parse path source symbols).outlines) :
    (outline.read path source.toList).unqualified =
      (outline.read path (activeCode source.toList symbols)).unqualified := by
  have hhead : outline.toHead ∈ headsOf (parse path source symbols).tree := by
    rw [← map_head_outlines]
    exact List.mem_map_of_mem h
  obtain ⟨hslice, hlocation⟩ : slice source.toList outline.name =
        slice (activeCode source.toList symbols) outline.name ∧
      Location.ofOffset path source.toList outline.name.start =
        Location.ofOffset path (activeCode source.toList symbols) outline.name.start := by
    rcases readable.types _ hhead with hvisible | ⟨hempty, hvisible⟩
    · obtain ⟨front, c, back, hactive, hblank, hstart⟩ := hvisible
      refine ⟨slice_activeCode hactive hblank hstart (readable.lines _ hhead), ?_⟩
      rw [← hstart]
      refine (ofOffset_activeCode path hactive hblank (Nat.le_refl _) ?_).symm
      rw [byteSize_append]
      exact Nat.le_add_right _ _
    · obtain ⟨front, c, back, hactive, hblank, hstart⟩ := hvisible
      refine ⟨?_, ?_⟩
      · rw [slice, slice, hempty, Nat.sub_self, takeBytes_zero, takeBytes_zero]
      · rw [← hstart]
        refine (ofOffset_activeCode path hactive hblank ?_ (Nat.le_refl _)).symm
        rw [byteSize_append]
        exact Nat.le_add_right _ _
  rw [Declaration.unqualified, Declaration.unqualified, Outline.read, Outline.read,
    Head.declaration, Head.declaration, hslice, hlocation]

theorem visible_name_iff (h : outline ∈ (parse path source symbols).outlines) {name : Span}
    (hname : name ∈ outline.namespaces) :
    (visible (slice (activeCode source.toList symbols) name)).Sublist
        (visible (slice source.toList name)) ∧
      (visible (slice source.toList name) =
          visible (slice (activeCode source.toList symbols) name) ↔
        crossesDirective source.toList name = false) := by
  have hmem := namespaces_subset (List.nil_subset _) (List.Subset.refl _) outline h hname
  rcases readable.namespaces name hmem with hvisible | hempty
  · obtain ⟨front, c, back, hactive, hblank, hstart⟩ := hvisible
    exact ⟨visible_slice_sublist hactive hblank hstart,
      visible_slice_activeCode_iff hactive hblank hstart⟩
  · -- An empty name shows nothing in either text, and nothing begins inside it.
    have hnothing (text : List Char) : slice text name = [] := by
      rw [slice, hempty, Nat.sub_self, takeBytes_zero]
    rw [hnothing, hnothing]
    refine ⟨List.Sublist.refl _, fun _ => ?_, fun _ => rfl⟩
    rw [crossesDirective, List.any_eq_false]
    intro sign _
    rw [Span.contains_iff]
    omega

theorem namespaces_read_of_not_crosses (h : outline ∈ (parse path source symbols).outlines)
    (hnames : ∀ name ∈ outline.namespaces, crossesDirective source.toList name = false) :
    (outline.read path source.toList).namespaces =
      (outline.read path (activeCode source.toList symbols)).namespaces := by
  have hvisible : outline.namespaces.map (fun name => visible (slice source.toList name)) =
      outline.namespaces.map fun name =>
        visible (slice (activeCode source.toList symbols) name) :=
    List.map_congr_left fun name hname =>
      (visible_name_iff readable h hname).2.mpr (hnames name hname)
  rw [Outline.read, Outline.read, Head.declaration, Head.declaration, foldl_enterNamespace,
    foldl_enterNamespace, namesIn, namesIn, hvisible]

/-- A name inside the namespaces of a declaration, as a qualified name has it, tells whether a
directive begins in one of their names. -/
theorem intercalate_namespaces_iff (h : outline ∈ (parse path source symbols).outlines)
    (inner : List String) :
    ".".intercalate ((outline.read path source.toList).namespaces ++ inner) =
        ".".intercalate
          ((outline.read path (activeCode source.toList symbols)).namespaces ++ inner) ↔
      ∀ name ∈ outline.namespaces, crossesDirective source.toList name = false := by
  constructor
  · intro heq name hname
    have hsame := eq_of_intercalate_eq (fun name hname => (visible_name_iff readable h hname).1) heq
    exact (visible_name_iff readable h hname).2.mp (hsame name hname)
  · intro hnames
    rw [namespaces_read_of_not_crosses readable h hnames]

theorem read_eq_iff (h : outline ∈ (parse path source symbols).outlines) :
    outline.read path source.toList = outline.read path (activeCode source.toList symbols) ↔
      ∀ name ∈ outline.namespaces, crossesDirective source.toList name = false := by
  constructor
  · intro heq
    apply (intercalate_namespaces_iff readable h []).mp
    rw [heq]
  · intro hnames
    have hsplit (d : Declaration) : d = { d.unqualified with namespaces := d.namespaces } := rfl
    rw [hsplit (outline.read path source.toList), unqualified_read readable h,
      namespaces_read_of_not_crosses readable h hnames]
    rfl

end Grammar

/-- A file has the same declarations as its active code alone, kinds, identifiers, containing types,
byte ranges, places and source lines included. Only the names of namespaces can differ, and a
declaration has another namespace and another qualified name exactly if a directive begins inside
the name of one of its namespaces. This is so for every grammar, as long as the names in the tree
begin with visible characters and those of types lie on one line. -/
theorem declarations_activeSource_iff [Grammar] (path source : String) (symbols : Symbols)
    (readable : Readable (activeCode source.toList symbols) (parse path source symbols).tree) :
    let outlines := (parse path source symbols).outlines
    let whole := (parse path source symbols).declarations
    let alone := (parse path (activeSource source symbols) []).declarations
    whole.map (·.unqualified) = alone.map (·.unqualified) ∧
    (whole = alone ↔ ∀ outline ∈ outlines, ∀ name ∈ outline.namespaces,
      crossesDirective source.toList name = false) ∧
    ∀ index outline, outlines[index]? = some outline →
      ((whole[index]?.map (·.namespaceName) = alone[index]?.map (·.namespaceName) ↔
        ∀ name ∈ outline.namespaces, crossesDirective source.toList name = false) ∧
      (qualifiedName whole index = qualifiedName alone index ↔
        ∀ name ∈ outline.namespaces, crossesDirective source.toList name = false)) := by
  intro outlines whole alone
  have hwhole : whole = outlines.map (·.read path source.toList) :=
    (parse path source symbols).declarations_eq_map_read
  have halone : alone = outlines.map (·.read path (activeCode source.toList symbols)) :=
    declarations_activeSource path source symbols
  have hunqualified : whole.map (·.unqualified) = alone.map (·.unqualified) := by
    rw [hwhole, halone, List.map_map, List.map_map]
    exact List.map_congr_left fun outline h => unqualified_read readable h
  refine ⟨hunqualified, ?_, fun index outline hindex => ?_⟩
  · rw [hwhole, halone, List.map_inj_left]
    exact forall₂_congr fun outline h => read_eq_iff readable h
  · have h : outline ∈ outlines := List.mem_of_getElem? hindex
    have hfirst : whole[index]? = some (outline.read path source.toList) := by
      rw [hwhole, List.getElem?_map, hindex, Option.map_some]
    have hsecond : alone[index]? =
        some (outline.read path (activeCode source.toList symbols)) := by
      rw [halone, List.getElem?_map, hindex, Option.map_some]
    constructor
    · rw [hfirst, hsecond, Option.map_some, Option.map_some, Option.some.injEq,
        ← intercalate_namespaces_iff readable h [], List.append_nil, List.append_nil]
      rfl
    · simp only [qualifiedName, hfirst, hsecond]
      rw [identifierPath_congr hunqualified index]
      exact intercalate_namespaces_iff readable h _

/-- A branch inside a namespace does not disturb the name of the namespace. -/
theorem declarations_activeSource_iff_branch :
    let source := "namespace A.B \x7b\n#if X\nclass D { }\n#else\nclass C { }\n#endif\n\x7d\n"
    let whole := (parse "A.cs" source []).declarations
    let alone := (parse "A.cs" (activeSource source []) []).declarations
    Readable (activeCode source.toList []) (parse "A.cs" source []).tree ∧
      (parse "A.cs" source []).outlines =
        [⟨⟨.classType, ⟨46, 47⟩, ⟨40, 51⟩⟩, [⟨10, 13⟩], none⟩] ∧
      crossesDirective source.toList ⟨10, 13⟩ = false ∧ whole = alone ∧
      qualifiedName whole 0 = qualifiedName alone 0 := by
  intro source whole alone
  have hactive : activeCode source.toList [] =
      "namespace A.B \x7b\n     \n           \n     \nclass C { }\n      \n\x7d\n".toList := by
    have hlines : rawLines source.toList = ["namespace A.B \x7b\n".toList] ++ "#if X\n".toList ::
        ["class D { }\n".toList, "#else\n".toList, "class C { }\n".toList, "#endif\n".toList,
          "\x7d\n".toList] := by decide +kernel
    rw [activeCode_of_undefined "X" [] hlines (by decide +kernel) (by decide +kernel)
      (by decide +kernel)]
    decide +kernel
  have houtlines : (parse "A.cs" source []).outlines =
      [⟨⟨.classType, ⟨46, 47⟩, ⟨40, 51⟩⟩, [⟨10, 13⟩], none⟩] := by
    rw [outlines, tree_parse, hactive]
    decide +kernel
  have hcrosses : crossesDirective source.toList ⟨10, 13⟩ = false := by decide +kernel
  have hreadable : Readable (activeCode source.toList []) (parse "A.cs" source []).tree :=
    readable_parse _
  obtain ⟨-, hsame, hnames⟩ := declarations_activeSource_iff "A.cs" source [] hreadable
  have hqualified := (hnames 0 _ (by rw [houtlines]; rfl)).2.mpr (by simpa using hcrosses)
  rw [houtlines] at hsame
  exact ⟨hreadable, houtlines, hcrosses, hsame.mpr (by simpa using hcrosses), hqualified⟩

/-- A directive inside the name of a namespace: the directives and the inactive code between them
become a part of the name. -/
theorem qualifiedName_crossed :
    let source := "namespace A.\n#if X\nFoo.\n#endif\nB { class C { } }\n"
    let whole := (parse "A.cs" source []).declarations
    let alone := (parse "A.cs" (activeSource source []) []).declarations
    qualifiedName whole 0 = "A.#ifXFoo.#endifB.C" ∧ qualifiedName alone 0 = "A.B.C" ∧
      whole ≠ alone := by
  intro source whole alone
  have hactive : activeCode source.toList [] =
      "namespace A.\n     \n    \n      \nB { class C { } }\n".toList := by
    have hlines : rawLines source.toList = ["namespace A.\n".toList] ++ "#if X\n".toList ::
        ["Foo.\n".toList, "#endif\n".toList, "B { class C { } }\n".toList] := by decide +kernel
    rw [activeCode_of_undefined "X" [] hlines (by decide +kernel) (by decide +kernel)
      (by decide +kernel)]
    decide +kernel
  have hwhole : qualifiedName whole 0 = "A.#ifXFoo.#endifB.C" := by
    change qualifiedName (declarationsOf "A.cs" source.toList [] none 0
      (CSharp.parse (activeCode source.toList []))) 0 = _
    rw [hactive]
    decide +kernel
  have halone : qualifiedName alone 0 = "A.B.C" := by
    change qualifiedName (parse "A.cs" (activeSource source []) []).declarations 0 = _
    rw [declarations_activeSource, outlines, tree_parse, hactive]
    decide +kernel
  refine ⟨hwhole, halone, fun heq => ?_⟩
  rw [heq, halone] at hwhole
  exact absurd hwhole (by decide)

end SourceFile

end ResourceLanguage.CSharp
