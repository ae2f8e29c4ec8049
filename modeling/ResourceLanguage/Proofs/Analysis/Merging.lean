import Mathlib.Data.List.Nodup
import ResourceLanguage.Proofs.Analysis.NamedType
import ResourceLanguage.Proofs.CSharp.Tree
import ResourceLanguage.Proofs.Text.ByteOrder
import ResourceLanguage.Proofs.Text.Position

/-!
The named types of a project. For each qualified name there is one type with the sorted places of
all declarations of that name. Places in one file are known by line and column, so that with
different paths the order of the files does not matter.
-/

namespace ResourceLanguage.CSharp

open ResourceLanguage.Text

/-! ### The places of declarations -/

/-- In one file, line and column determine the place of a declaration. -/
theorem SourceFile.location_eq_of_key_eq {file : SourceFile} {declaration other : Declaration}
    (h : declaration ∈ file.declarations) (hother : other ∈ file.declarations)
    (hkey : declaration.location.key = other.location.key) :
    declaration.location = other.location := by
  obtain ⟨head, -, namespaces, parent, rfl⟩ := exists_head h
  obtain ⟨head', -, namespaces', parent', rfl⟩ := exists_head hother
  obtain ⟨-, hplace⟩ := Prod.mk.inj (toLex.injective hkey)
  obtain ⟨hline, hcol⟩ := Prod.mk.inj (toLex.injective hplace)
  exact ofOffset_eq_of_position hline hcol

/-! ### Named types -/

/-- The places of the declarations with a qualified name, in their order. -/
def locationsOf (declared : List (String × Declaration)) (name : String) : List Location :=
  ((declared.filter (·.1 == name)).map (·.2.location)).mergeSort Location.le

namespace NamedType

/-- What a named type consists of apart from the kind, which depends on the first declaration. -/
def entry (type : NamedType) : String × String × List Location :=
  (type.name, type.qualifiedName, type.locations)

theorem locations_of_ofName? {declared : List (String × Declaration)} {name : String}
    {type : NamedType} (h : ofName? declared name = some type) :
    type.locations = locationsOf declared name := by
  rw [ofName?] at h
  split at h
  · cases h
  · rename_i hgroup
    cases h
    rw [locationsOf, hgroup, List.map_cons]

variable {files : List SourceFile}

/-- A qualified name determines the type. -/
theorem entry_ofName? (dotless : ∀ file ∈ files, ∀ declaration ∈ file.declarations,
      '.' ∉ declaration.identifier.toList) {name : String}
    (h : name ∈ (declared files).map (·.1)) :
    (ofName? (declared files) name).map entry =
      some (afterLastDot name, name, locationsOf (declared files) name) := by
  obtain ⟨type, htype, hqualified, -, declaration, hdeclaration, hidentifier⟩ := ofName?_of_mem h
  have hname : type.name = afterLastDot name := by
    rw [hidentifier]
    exact identifier_of_mem_declared dotless hdeclaration
  rw [htype, Option.map_some, entry, hname, hqualified, locations_of_ofName? htype]

theorem map_entry_ofFiles (dotless : ∀ file ∈ files, ∀ declaration ∈ file.declarations,
      '.' ∉ declaration.identifier.toList) :
    (ofFiles files).map entry = (sortedSet ((declared files).map (·.1))).map fun name =>
      (afterLastDot name, name, locationsOf (declared files) name) := by
  calc
    (ofFiles files).map entry = (sortedSet ((declared files).map (·.1))).filterMap
        fun name => (ofName? (declared files) name).map entry := List.map_filterMap
    _ = (sortedSet ((declared files).map (·.1))).filterMap
        (some ∘ fun name => (afterLastDot name, name, locationsOf (declared files) name)) :=
      List.filterMap_congr fun name hname => entry_ofName? dotless (mem_sortedSet.mp hname)
    _ = _ := by rw [List.filterMap_eq_map]

end NamedType

/-- The named types in which some declarations are merged. -/
structure Merges (declared : List (String × Declaration)) (types : List NamedType) : Prop where
  increasing : (types.map (·.qualifiedName)).Pairwise BytesBefore
  sorted : ∀ type ∈ types, type.locations.Pairwise fun a b => a.key ≤ b.key
  locations : ∀ type ∈ types,
    type.locations.Perm ((declared.filter (·.1 == type.qualifiedName)).map (·.2.location))
  name : ∀ type ∈ types, ∀ found ∈ declared, found.1 = type.qualifiedName →
    found.2.identifier = type.name
  partition : (types.flatMap fun type => type.locations.map fun place =>
    (type.qualifiedName, place)).Perm (declared.map fun found => (found.1, found.2.location))

section Merging

variable {files : List SourceFile}

theorem locationsOf_perm (declared : List (String × Declaration)) (name : String) :
    (locationsOf declared name).Perm ((declared.filter (·.1 == name)).map (·.2.location)) :=
  List.mergeSort_perm _ _

theorem pairwise_locationsOf (declared : List (String × Declaration)) (name : String) :
    (locationsOf declared name).Pairwise fun a b => a.key ≤ b.key :=
  Location.pairwise_key_mergeSort id _

/-- Cutting the declarations up by their names loses none of them. -/
theorem flatMap_locationsOf_perm (declared : List (String × Declaration)) :
    ((sortedSet (declared.map (·.1))).flatMap fun name =>
      (locationsOf declared name).map fun place => (name, place)).Perm
        (declared.map fun found => (found.1, found.2.location)) := by
  have hcut := perm_flatMap_filter_key (·.1) (nodup_sortedSet (declared.map (·.1))) declared
    fun found hfound => mem_sortedSet.mpr (List.mem_map_of_mem hfound)
  have hpairs := hcut.map fun found => (found.1, found.2.location)
  rw [List.map_flatMap] at hpairs
  refine (List.Perm.flatMap_left _ fun name _ => ?_).trans hpairs
  have hgroup : (declared.filter (·.1 == name)).map (fun found => (found.1, found.2.location)) =
      ((declared.filter (·.1 == name)).map (·.2.location)).map fun place => (name, place) := by
    rw [List.map_map]
    refine List.map_congr_left fun found hfound => ?_
    rw [beq_iff_eq.mp (List.mem_filter.mp hfound).2]
    rfl
  rw [hgroup]
  exact (locationsOf_perm declared name).map _

theorem merges_ofFiles (dotless : ∀ file ∈ files, ∀ declaration ∈ file.declarations,
      '.' ∉ declaration.identifier.toList) :
    Merges (declared files) (NamedType.ofFiles files) := by
  have hentries := NamedType.map_entry_ofFiles dotless
  have hentry : ∀ type ∈ NamedType.ofFiles files,
      type.name = afterLastDot type.qualifiedName ∧
        type.locations = locationsOf (declared files) type.qualifiedName := by
    intro type htype
    have hmem := List.mem_map_of_mem (f := NamedType.entry) htype
    rw [hentries] at hmem
    obtain ⟨name, -, hname⟩ := List.mem_map.mp hmem
    obtain ⟨hname, hrest⟩ := Prod.mk.inj hname
    obtain ⟨rfl, hlocations⟩ := Prod.mk.inj hrest
    exact ⟨hname.symm, hlocations.symm⟩
  constructor
  case increasing =>
    have hnames := congrArg (List.map (·.2.1)) hentries
    rw [List.map_map, List.map_map] at hnames
    change (NamedType.ofFiles files).map (·.qualifiedName) = List.map id _ at hnames
    rw [hnames, List.map_id]
    exact (pairwise_sortedSet _).imp bytesBefore_of_lt
  case sorted =>
    intro type htype
    rw [(hentry type htype).2]
    exact pairwise_locationsOf _ _
  case locations =>
    intro type htype
    rw [(hentry type htype).2]
    exact locationsOf_perm _ _
  case name =>
    intro type htype found hfound hname
    rw [(hentry type htype).1, ← hname]
    exact identifier_of_mem_declared dotless hfound
  case partition =>
    have hflat : ((NamedType.ofFiles files).flatMap fun type => type.locations.map fun place =>
          (type.qualifiedName, place)) =
        ((NamedType.ofFiles files).map NamedType.entry).flatMap fun entry =>
          entry.2.2.map fun place => (entry.2.1, place) := by
      rw [List.flatMap_map]
      rfl
    rw [hflat, hentries, List.flatMap_map]
    exact flatMap_locationsOf_perm (declared files)

/-- With different paths, sorting leaves nothing to the order of the files. -/
theorem locationsOf_eq_of_perm {files' : List SourceFile} (hpaths : (files.map (·.path)).Nodup)
    (h : files'.Perm files) (name : String) :
    locationsOf (declared files') name = locationsOf (declared files) name := by
  have hdeclared : (declared files').Perm (declared files) := h.flatMap_right _
  have hperm : (locationsOf (declared files') name).Perm (locationsOf (declared files) name) :=
    (locationsOf_perm _ _).trans
      (((hdeclared.filter _).map _).trans (locationsOf_perm _ _).symm)
  have hplace : ∀ place ∈ locationsOf (declared files) name, ∃ file ∈ files,
      place.file = file.path ∧ ∃ declaration ∈ file.declarations,
        place = declaration.location := by
    intro place hplace
    obtain ⟨found, hfound, rfl⟩ := List.mem_map.mp ((locationsOf_perm _ _).mem_iff.mp hplace)
    obtain ⟨file, hfile, hfound⟩ := List.mem_flatMap.mp (List.mem_filter.mp hfound).1
    have hdeclaration : found.2 ∈ file.declarations := by
      rw [← file.map_snd_qualified]
      exact List.mem_map_of_mem hfound
    exact ⟨file, hfile, SourceFile.file_location hdeclaration, found.2, hdeclaration, rfl⟩
  refine hperm.eq_of_pairwise ?_ (pairwise_locationsOf _ _) (pairwise_locationsOf _ _)
  intro a b ha hb hab hba
  have hkey := le_antisymm hab hba
  obtain ⟨file, hfile, hpath, declaration, hdeclaration, rfl⟩ := hplace a (hperm.mem_iff.mp ha)
  obtain ⟨file', hfile', hpath', declaration', hdeclaration', rfl⟩ := hplace b hb
  -- The same place is in the same file.
  have hsame : file.path = file'.path := by
    rw [← hpath, ← hpath']
    exact (Prod.mk.inj (toLex.injective hkey)).1
  obtain rfl := List.inj_on_of_nodup_map hpaths hfile hfile' hsame
  exact SourceFile.location_eq_of_key_eq hdeclaration hdeclaration' hkey

/-- The types of some files, whatever their trees, in the order of the bytes of their qualified
names, have every declaration at its place once, and under the name of the declaration. As long as
no two files have the same path, the types do not depend on the order of the files, except for their
kinds. Identifiers are taken to have no dots in them. -/
theorem ofFiles_merges_in_any_order (dotless : ∀ file ∈ files, ∀ declaration ∈ file.declarations,
      '.' ∉ declaration.identifier.toList) :
    Merges (declared files) (NamedType.ofFiles files) ∧
    ((files.map (·.path)).Nodup → ∀ files', files'.Perm files →
      (NamedType.ofFiles files').map NamedType.entry =
        (NamedType.ofFiles files).map NamedType.entry) := by
  refine ⟨merges_ofFiles dotless, fun hpaths files' hperm => ?_⟩
  have hdeclared : (declared files').Perm (declared files) := hperm.flatMap_right _
  rw [NamedType.map_entry_ofFiles dotless, NamedType.map_entry_ofFiles
    fun file hfile => dotless file (hperm.mem_iff.mp hfile),
    sortedSet_eq_of_perm (hdeclared.map _)]
  refine List.map_congr_left fun name _ => ?_
  rw [locationsOf_eq_of_perm hpaths hperm]

/-- A form in two parts, with a type inside the first one. The name of the namespace in the second
tree takes in a space, and the tree ends with a type that has no name. -/
theorem ofFiles_merges_parts_in_any_order :
    let token (isName : Bool) (start stop : Nat) : Node := ⟨.other, ⟨start, stop⟩, isName, []⟩
    let files : List SourceFile :=
      [{ path := "b.cs", source := "N Form Row"
         tree := [⟨.namespaceBlock, ⟨0, 10⟩, false, [token true 0 1,
           ⟨.type .classType, ⟨2, 10⟩, false, [token true 2 6,
             ⟨.type .structType, ⟨7, 10⟩, false, [token true 7 10]⟩]⟩]⟩] },
        { path := "a.cs", source := "N \nForm ?"
          tree := [⟨.namespaceFile, ⟨0, 2⟩, false, [token true 0 2]⟩,
            ⟨.type .classType, ⟨3, 7⟩, false, [token true 3 7]⟩,
            ⟨.type .classType, ⟨8, 9⟩, false, [token false 8 9]⟩] }]
    (declared files).map (fun found => (found.1, found.2.location.file, found.2.location.line)) =
        [("N.Form", "b.cs", 1), ("N.Form.Row", "b.cs", 1), ("N.Form", "a.cs", 2)] ∧
      Merges (declared files) (NamedType.ofFiles files) ∧
      (NamedType.ofFiles files.reverse).map NamedType.entry =
        (NamedType.ofFiles files).map NamedType.entry := by
  intro token files
  obtain ⟨hmerges, hperm⟩ := @ofFiles_merges_in_any_order files (by decide +kernel)
  exact ⟨by decide +kernel, hmerges, hperm (by decide +kernel) _ files.reverse_perm⟩

end Merging

end ResourceLanguage.CSharp
