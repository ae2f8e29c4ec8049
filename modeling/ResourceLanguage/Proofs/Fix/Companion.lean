import ResourceLanguage.Proofs.Path
import ResourceLanguage.Proofs.Scan

/-!
Two ways from a type to its resource file. An issue is reported for a type that has the base name
of a resource file, where the file name is cut at its last dot; a fix puts a file name together from
the name of the type and looks for it. On the files that a scan takes for resource files the two
agree.
-/

namespace ResourceLanguage

namespace Path

/-- Names that give the same path are the same. -/
theorem join_inj (path : Path) {first second : String} (hfirst : IsName first)
    (hsecond : IsName second) : path.join first = path.join second ↔ first = second := by
  refine ⟨fun h => ?_, congrArg path.join⟩
  have hname := congrArg fileName? h
  rwa [fileName?_join path hfirst, fileName?_join path hsecond, Option.some.injEq] at hname

/-- A path that ends in an extension has one stem, the one from which the file name can be put
together. -/
theorem fileStem?_eq_some_iff {path : Path} {name stem extension : String}
    (hname : path.fileName? = some name) (hextension : path.extension? = some extension) :
    path.fileStem? = some stem ↔ stem ++ "." ++ extension = name := by
  constructor
  · intro hstem
    have hparts := fileName?_of_extension? hstem hextension
    rw [hname, Option.some.injEq] at hparts
    exact hparts.symm
  · intro hparts
    rw [extension?, hname, Option.bind_some] at hextension
    have hcut : name = (splitExtension name).1 ++ "." ++ extension :=
      eq_of_splitExtension (Prod.ext rfl hextension)
    have hstems : stem = (splitExtension name).1 := by
      simpa [← String.toList_inj] using hparts.trans hcut
    rw [fileStem?, hname, hstems]
    rfl

end Path

namespace Workspace

theorem isName_of_mem_list {files : Workspace} (hnamed : files.WellNamed) {directory : Path}
    {entries : List (String × Entry)} (hlist : files.list directory = .ok entries) {name : String}
    {entry : Entry} (hlisted : (name, entry) ∈ entries) : Path.IsName name := by
  rw [list_eq] at hlist
  split at hlist
  · cases hlist
  · rename_i place hplace
    split at hlist
    · cases hlist
      obtain ⟨⟨names, found⟩, hbelow, hname⟩ := List.mem_filterMap.mp hlisted
      dsimp only at hname
      split at hname
      · cases hname
        have hmem : (place ++ [name], entry) ∈ files.entries := (mem_below.mp hbelow).2
        exact hnamed _ hmem name (List.mem_append_right _ List.mem_cons_self)
      · cases hname
    · cases hlist

end Workspace

/-! ### Resource files in a listing -/

/-- The listing of a directory has a file at the path that a scan takes for a resource file if
nothing is ignored. -/
def ListsResource (directory : Path) (entries : List (String × Entry)) (path : Path) : Prop :=
  ∃ name entry, (name, entry) ∈ entries ∧ path = directory.join name ∧
    Scan.selects ⟨[], []⟩ resourceExtension (path, entry) = true

theorem selects_resource_iff {path : Path} {entry : Entry} :
    Scan.selects ⟨[], []⟩ resourceExtension (path, entry) = true ↔
      entry.isFile = true ∧ path.extension? = some resourceExtension := by
  simp [Scan.selects, Exclusion.excludes]

theorem companion?_of_list {files : Workspace} {directory : Path}
    {entries : List (String × Entry)} (hlist : files.list directory = .ok entries)
    (typeName : String) :
    ∃ found, companion? files directory typeName = .ok found ∧ ∀ path, found = some path ↔
      ∃ entry, (typeName ++ "." ++ resourceExtension, entry) ∈ entries ∧ entry.isFile = true ∧
        path = directory.join (typeName ++ "." ++ resourceExtension) := by
  rw [companion?, hlist]
  refine ⟨_, rfl, fun path => ?_⟩
  rw [Option.ite_none_right_eq_some, List.any_eq_true, Option.some.injEq]
  constructor
  · rintro ⟨⟨⟨name, entry⟩, hlisted, hentry⟩, rfl⟩
    obtain ⟨rfl, hfile⟩ := of_decide_eq_true hentry
    exact ⟨entry, hlisted, hfile, rfl⟩
  · rintro ⟨entry, hlisted, hfile, rfl⟩
    exact ⟨⟨_, hlisted, decide_eq_true ⟨rfl, hfile⟩⟩, rfl⟩

/-- The base name of a resource file beside a declaration is the name of a type exactly if the file
is the one that a fix for the type finds there, however many dots the names have. A fix that finds
another file finds `.resx`, which has no extension, for a type without a name. -/
theorem baseName_iff_companion {files : Workspace} (hnamed : files.WellNamed)
    {directory : Path} {entries : List (String × Entry)}
    (hlist : files.list directory = .ok entries) (typeName : String) :
    ∃ found, companion? files directory typeName = .ok found ∧
      (∀ path text, ListsResource directory entries path →
        (Resource.baseName? ⟨path, text⟩ = some typeName ↔ found = some path)) ∧
      (typeName ≠ "" → ∀ path, found = some path → ListsResource directory entries path) := by
  obtain ⟨found, hcompanion, hfound⟩ := companion?_of_list hlist typeName
  refine ⟨found, hcompanion, ?_, ?_⟩
  · rintro path text ⟨name, entry, hlisted, rfl, hselects⟩
    obtain ⟨hfile, hextension⟩ := selects_resource_iff.mp hselects
    have hname := Workspace.isName_of_mem_list hnamed hlist hlisted
    rw [Resource.baseName?, hfound,
      Path.fileStem?_eq_some_iff (Path.fileName?_join directory hname) hextension]
    constructor
    · rintro rfl
      exact ⟨entry, hlisted, hfile, rfl⟩
    · rintro ⟨other, hother, -, hpath⟩
      have hcompanionName := Workspace.isName_of_mem_list hnamed hlist hother
      exact ((Path.join_inj directory hname hcompanionName).mp hpath).symm
  · intro htype path hpath
    obtain ⟨entry, hlisted, hfile, rfl⟩ := (hfound path).mp hpath
    refine ⟨_, entry, hlisted, rfl, selects_resource_iff.mpr ⟨hfile, ?_⟩⟩
    have hname := Workspace.isName_of_mem_list hnamed hlist hlisted
    rw [Path.extension?, Path.fileName?_join directory hname, Option.bind_some,
      Path.splitExtension_append (by simpa using htype) (by decide)]

/-- A resource file whose name begins with two dots, one for a language, one without an extension,
and a directory that has the name of a resource file. -/
def dottedNames : Workspace where
  entries := [(["Main.resx"], .directory), (["Main.de.resx"], .file []), (["..resx"], .file []),
    ([".resx"], .file [])]
  current := []

theorem baseName_iff_companion_dottedNames :
    ∃ entries, dottedNames.WellNamed ∧ dottedNames.list "/" = .ok entries ∧
      ListsResource "/" entries "/Main.de.resx" ∧
      companion? dottedNames "/" "Main.de" = .ok (some "/Main.de.resx") ∧
      companion? dottedNames "/" "Main" ≠ .ok (some "/Main.de.resx") ∧
      ListsResource "/" entries "/..resx" ∧
      companion? dottedNames "/" "." = .ok (some "/..resx") := by
  let entries : List (String × Entry) :=
    [("Main.resx", .directory), ("Main.de.resx", .file []), ("..resx", .file []),
      (".resx", .file [])]
  have hnamed : dottedNames.WellNamed := by decide +kernel
  have hlist : dottedNames.list "/" = .ok entries := by decide +kernel
  have hlanguage : ListsResource "/" entries "/Main.de.resx" :=
    ⟨"Main.de.resx", .file [], by decide, by decide +kernel, by decide +kernel⟩
  have hdots : ListsResource "/" entries "/..resx" :=
    ⟨"..resx", .file [], by decide, by decide +kernel, by decide +kernel⟩
  refine ⟨entries, hnamed, hlist, hlanguage, ?_, ?_, hdots, ?_⟩
  · obtain ⟨found, hcompanion, hagree, -⟩ := baseName_iff_companion hnamed hlist "Main.de"
    rw [hcompanion, (hagree _ "" hlanguage).mp (by decide +kernel)]
  · obtain ⟨found, hcompanion, hagree, -⟩ := baseName_iff_companion hnamed hlist "Main"
    rw [hcompanion, Ne, Except.ok.injEq, ← hagree _ "" hlanguage]
    decide +kernel
  · obtain ⟨found, hcompanion, hagree, -⟩ := baseName_iff_companion hnamed hlist "."
    rw [hcompanion, (hagree _ "" hdots).mp (by decide +kernel)]

end ResourceLanguage
