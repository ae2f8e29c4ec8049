import ResourceLanguage.CSharp.NamedType
import ResourceLanguage.Proofs.Order

/-!
Merging declarations into named types loses nothing and doubles nothing. A qualified name ends with
the identifier of its declaration, so that declarations with the same qualified name have the same
identifier as long as identifiers have no dots.
-/

namespace ResourceLanguage.CSharp

/-! ### Qualified names -/

def afterLastDot (text : String) : String :=
  String.ofList (text.toList.reverse.takeWhile (· != '.')).reverse

/-- Only the last dot counts, and a text without dots is what follows it. -/
theorem afterLastDot_append (outer : String) {text : String} (h : '.' ∉ text.toList)
    (houter : outer.toList.reverse.takeWhile (· != '.') = []) :
    afterLastDot (outer ++ text) = text := by
  have hall : ∀ c ∈ text.toList.reverse, (c != '.') = true := by
    intro c hc
    rw [bne_iff_ne]
    rintro rfl
    exact h (List.mem_reverse.mp hc)
  rw [afterLastDot, String.toList_append, List.reverse_append,
    List.takeWhile_append_of_pos hall, houter, List.append_nil, List.reverse_reverse,
    String.ofList_toList]

theorem afterLastDot_intercalate (outer : List String) {name : String}
    (h : '.' ∉ name.toList) : afterLastDot (".".intercalate (outer ++ [name])) = name := by
  by_cases houter : outer = []
  · subst houter
    simpa using afterLastDot_append "" h rfl
  · rw [String.intercalate_append_of_ne_nil houter (by simp), String.intercalate_singleton]
    exact afterLastDot_append _ h (by simp)

/-- The path of identifiers to a declaration ends with its own. -/
theorem identifierPath_eq_append {declarations : List Declaration} {index : Nat}
    {declaration : Declaration} (h : declarations[index]? = some declaration) :
    ∃ outer, identifierPath declarations index = outer ++ [declaration.identifier] := by
  rw [identifierPath, h]
  dsimp only
  split
  · exact ⟨[], rfl⟩
  · split
    · exact ⟨_, rfl⟩
    · exact ⟨[], rfl⟩

/-- The identifier of a declaration is what follows the last dot of its qualified name. -/
theorem afterLastDot_qualifiedName {declarations : List Declaration} {index : Nat}
    {declaration : Declaration} (h : declarations[index]? = some declaration)
    (hdotless : '.' ∉ declaration.identifier.toList) :
    afterLastDot (qualifiedName declarations index) = declaration.identifier := by
  obtain ⟨outer, hpath⟩ := identifierPath_eq_append h
  rw [qualifiedName, h]
  simp only [hpath, ← List.append_assoc]
  exact afterLastDot_intercalate _ hdotless

theorem SourceFile.map_snd_qualified (file : SourceFile) :
    file.qualified.map (·.2) = file.declarations := by
  simp only [SourceFile.qualified, List.map_map, Function.comp_def]
  exact List.zipIdx_map_fst 0 file.declarations

theorem SourceFile.identifier_of_mem_qualified {file : SourceFile} {name : String}
    {declaration : Declaration} (h : (name, declaration) ∈ file.qualified)
    (hdotless : '.' ∉ declaration.identifier.toList) :
    declaration.identifier = afterLastDot name := by
  rw [SourceFile.qualified, List.mem_map] at h
  obtain ⟨⟨found, index⟩, hmem, heq⟩ := h
  obtain ⟨rfl, rfl⟩ := Prod.mk.inj heq
  rw [List.mem_zipIdx_iff_getElem?] at hmem
  exact (afterLastDot_qualifiedName hmem hdotless).symm

/-! ### Merging -/

/-- The declarations of some files under their qualified names. -/
def declared (files : List SourceFile) : List (String × Declaration) :=
  files.flatMap SourceFile.qualified

theorem map_snd_declared (files : List SourceFile) :
    (declared files).map (·.2) = files.flatMap (·.declarations) := by
  rw [declared, List.map_flatMap]
  simp only [SourceFile.map_snd_qualified]

theorem identifier_of_mem_declared {files : List SourceFile}
    (dotless : ∀ file ∈ files, ∀ declaration ∈ file.declarations,
      '.' ∉ declaration.identifier.toList)
    {found : String × Declaration} (h : found ∈ declared files) :
    found.2.identifier = afterLastDot found.1 := by
  obtain ⟨file, hfile, hfound⟩ := List.mem_flatMap.mp h
  have hdeclaration : found.2 ∈ file.declarations := by
    rw [← file.map_snd_qualified]
    exact List.mem_map_of_mem hfound
  exact SourceFile.identifier_of_mem_qualified hfound (dotless file hfile _ hdeclaration)

namespace NamedType

/-- The named type for a qualified name has one place for each declaration with that name, and
the name of one of them. -/
theorem ofName?_of_mem {declared : List (String × Declaration)} {name : String}
    (h : name ∈ declared.map (·.1)) :
    ∃ type, ofName? declared name = some type ∧ type.qualifiedName = name ∧
      type.locations.Perm ((declared.filter (·.1 == name)).map (·.2.location)) ∧
      ∃ declaration, (name, declaration) ∈ declared ∧ type.name = declaration.identifier := by
  obtain ⟨found, hmem, hfound⟩ := List.mem_map.mp h
  cases hgroup : declared.filter (·.1 == name) with
  | nil =>
      have hnone := List.filter_eq_nil_iff.mp hgroup found hmem
      simp [hfound] at hnone
  | cons first rest =>
      have hfirst : first ∈ declared.filter (·.1 == name) := by simp [hgroup]
      obtain ⟨hfirst, hname⟩ := List.mem_filter.mp hfirst
      have hfirst' : (name, first.2) ∈ declared := by
        rw [← beq_iff_eq.mp hname]
        exact hfirst
      refine ⟨_, by rw [ofName?, hgroup], rfl, ?_, first.2, hfirst', rfl⟩
      exact List.mergeSort_perm _ _

end NamedType

end ResourceLanguage.CSharp
