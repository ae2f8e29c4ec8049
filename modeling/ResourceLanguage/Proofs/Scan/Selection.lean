import ResourceLanguage.Proofs.Workspace.Tree

/-!
Which files a scan returns. They are those that are met on a walk from one of the starts, have one
of the two extensions and are not covered by an ignored entry. Each list is a sorted set, so the
entries of a configuration count as sets: neither their order nor their repetition matters, more
included entries give the files of each, and more ignored entries give fewer files.
-/

namespace ResourceLanguage

open ResourceLanguage.Glob ResourceLanguage.Text

/-! ### Ignored entries -/

namespace Exclusion

/-- Whether an ignored entry covers a path. An entry with wildcards covers what it matches, if it is
a valid pattern; all others cover what their components begin. -/
def Covers (base : Path) (entry : String) (path : Path) : Prop :=
  if isPattern entry then ∃ pattern, Pattern.parse entry = .ok pattern ∧ pattern.isMatch path = true
  else (base.join entry).components <+: path.components

theorem excludes_ofEntries_iff {base path : Path} {ignores : List String} :
    (ofEntries base ignores).excludes path = true ↔ ∃ entry ∈ ignores, Covers base entry path := by
  rw [excludes, Bool.or_eq_true, List.any_eq_true, List.any_eq_true]
  constructor
  · rintro (⟨outer, houter, hstarts⟩ | ⟨pattern, hpattern, hmatch⟩)
    · obtain ⟨entry, hentry, rfl⟩ := List.mem_map.mp houter
      obtain ⟨hentry, hkind⟩ := List.mem_filter.mp hentry
      refine ⟨entry, hentry, ?_⟩
      rw [Covers, if_neg (by simpa using hkind)]
      exact List.isPrefixOf_iff_prefix.mp hstarts
    · obtain ⟨entry, hentry, hparse⟩ := List.mem_filterMap.mp hpattern
      obtain ⟨hentry, hkind⟩ := List.mem_filter.mp hentry
      refine ⟨entry, hentry, ?_⟩
      rw [Covers, if_pos hkind]
      cases hread : Pattern.parse entry with
      | error error =>
          rw [hread] at hparse
          cases hparse
      | ok found =>
          rw [hread] at hparse
          exact ⟨pattern, congrArg Except.ok (Option.some.inj hparse), hmatch⟩
  · rintro ⟨entry, hentry, hcovers⟩
    rw [Covers] at hcovers
    split at hcovers
    · rename_i hkind
      obtain ⟨pattern, hparse, hmatch⟩ := hcovers
      refine .inr ⟨pattern, List.mem_filterMap.mpr ⟨entry, ?_, ?_⟩, hmatch⟩
      · exact List.mem_filter.mpr ⟨hentry, hkind⟩
      · rw [hparse]
        rfl
    · rename_i hkind
      refine .inl ⟨base.join entry, List.mem_map_of_mem (List.mem_filter.mpr ⟨hentry, ?_⟩), ?_⟩
      · simpa using hkind
      · exact List.isPrefixOf_iff_prefix.mpr hcovers

end Exclusion

namespace Scan

/-! ### The two lists of a scan -/

inductive Kind where
  | source
  | resource
  deriving DecidableEq, Repr

def Kind.extension : Kind → String
  | .source => sourceExtension
  | .resource => resourceExtension

def filesOf (scan : Scan) : Kind → List Path
  | .source => scan.sourceFiles
  | .resource => scan.resourceFiles

variable {files : Workspace} {base : Path} {includes ignores : List String}

theorem pairwise_filesOf (kind : Kind) :
    ((ofDirectory files base includes ignores).filesOf kind).Pairwise (· < ·) := by
  cases kind <;> exact pairwise_sortedSet _

/-- A scan returns the files of a kind that it comes across, unless an ignored entry covers
them. -/
theorem mem_filesOf {kind : Kind} {path : Path} :
    path ∈ (ofDirectory files base includes ignores).filesOf kind ↔
      (∃ content, Reaches files base includes (path, .file content)) ∧
        path.extension? = some kind.extension ∧
        ∀ entry ∈ ignores, ¬Exclusion.Covers base entry path := by
  have hselects : path ∈ (ofDirectory files base includes ignores).filesOf kind ↔
      ∃ entry, Reaches files base includes (path, entry) ∧
        selects (.ofEntries base ignores) kind.extension (path, entry) = true := by
    cases kind with
    | source => exact mem_sourceFiles
    | resource => exact mem_resourceFiles
  have hexcludes : (Exclusion.ofEntries base ignores).excludes path = false ↔
      ∀ entry ∈ ignores, ¬Exclusion.Covers base entry path := by
    rw [Bool.eq_false_iff, Ne, Exclusion.excludes_ofEntries_iff]
    simp
  simp only [hselects, selects, Bool.and_eq_true, Bool.not_eq_true', beq_iff_eq, hexcludes]
  constructor
  · rintro ⟨entry, hreaches, ⟨huncovered, hfile⟩, hextension⟩
    cases entry with
    | directory => cases hfile
    | file content => exact ⟨⟨content, hreaches⟩, hextension, huncovered⟩
  · rintro ⟨⟨content, hreaches⟩, hextension, huncovered⟩
    exact ⟨.file content, hreaches, ⟨huncovered, rfl⟩, hextension⟩

/-! ### Starts -/

theorem mem_starts {start : Path} :
    start ∈ (starts files base includes).1 ↔
      includes = [] ∧ start = base ∨ ∃ entry ∈ includes, start ∈ (startsOf files base entry).1 := by
  unfold starts
  split
  · rename_i hempty
    rw [List.isEmpty_iff] at hempty
    simp [hempty]
  · rename_i hempty
    rw [List.isEmpty_iff] at hempty
    simp [hempty]

/-- A path at which a scan starts if its included entries are paths: the base directory if there are
no entries, and else each entry that is there. -/
inductive StartsAt (files : Workspace) (base : Path) (includes : List String) : Path → Prop where
  | base (none : includes = []) : StartsAt files base includes base
  | entry {entry : String} (included : entry ∈ includes)
      (present : files.pathExists (base.join entry) = true) :
      StartsAt files base includes (base.join entry)

theorem mem_starts_iff_startsAt (hpaths : ∀ entry ∈ includes, isPattern entry = false)
    {start : Path} :
    start ∈ (starts files base includes).1 ↔ StartsAt files base includes start := by
  rw [mem_starts]
  constructor
  · rintro (⟨hnone, rfl⟩ | ⟨entry, hmem, hstart⟩)
    · exact .base hnone
    · obtain ⟨hpresent, rfl⟩ := (mem_startsOf_of_path (hpaths entry hmem)).mp hstart
      exact .entry hmem hpresent
  · intro hstart
    cases hstart with
    | base none => exact .inl ⟨none, rfl⟩
    | entry included present =>
        exact .inr ⟨_, included, (mem_startsOf_of_path (hpaths _ included)).mpr ⟨present, rfl⟩⟩

theorem isOk_walk_of_find? {path : Path} (h : (files.find? path).isSome = true) :
    ∃ found, files.walk path = .ok found := by
  unfold Workspace.find? at h
  split at h
  · rename_i place hplace
    rw [Workspace.walk, hplace]
    exact ⟨_, rfl⟩
  · cases h

/-- What an included entry leads to is there. -/
theorem find?_of_mem_startsOf {entry : String} {start : Path}
    (h : start ∈ (startsOf files base entry).1) : (files.find? start).isSome = true := by
  unfold startsOf at h
  split at h
  · split at h
    · obtain ⟨found, hfound, -⟩ := (Option.any_eq_true ..).mp (List.mem_filter.mp h).2
      exact Option.isSome_iff_exists.mpr ⟨found, hfound⟩
    · cases h
  · dsimp only at h
    split at h
    · rename_i hexists
      rw [List.mem_singleton.mp h]
      exact hexists
    · cases h

/-- Only the base directory can be inaccessible. -/
theorem skipped_eq_zero (h : includes ≠ []) :
    (ofDirectory files base includes ignores).skipped = 0 := by
  simp only [ofDirectory, List.length_eq_zero_iff, List.filterMap_eq_nil_iff, List.mem_map]
  rintro _ ⟨start, hstart, rfl⟩
  rcases mem_starts.mp hstart with ⟨hempty, -⟩ | ⟨entry, -, hstart⟩
  · exact absurd hempty h
  · obtain ⟨found, hfound⟩ := isOk_walk_of_find? (find?_of_mem_startsOf hstart)
    rw [hfound]

/-! ### Selection -/

/-- A file that a scan is to return: it is met on a walk from one of the starts, has the extension
and is not covered by an ignored entry. -/
structure Selected (files : Workspace) (base : Path) (includes ignores : List String)
    (extension : String) (path : Path) : Prop where
  met : ∃ start place content, StartsAt files base includes start ∧
    files.Meets start path place (.file content)
  extension : path.extension? = some extension
  uncovered : ∀ entry ∈ ignores, ¬Exclusion.Covers base entry path

theorem mem_filesOf_iff_selected (tree : files.IsTree)
    (hpaths : ∀ entry ∈ includes, isPattern entry = false) {kind : Kind} {path : Path} :
    path ∈ (ofDirectory files base includes ignores).filesOf kind ↔
      Selected files base includes ignores kind.extension path := by
  rw [mem_filesOf]
  simp only [Reaches, mem_starts_iff_startsAt hpaths, Workspace.mem_walk_iff_meets tree]
  constructor
  · rintro ⟨⟨content, start, hstart, place, hmeets⟩, hextension, huncovered⟩
    exact ⟨⟨start, place, content, hstart, hmeets⟩, hextension, huncovered⟩
  · rintro ⟨⟨start, place, content, hstart, hmeets⟩, hextension, huncovered⟩
    exact ⟨⟨content, start, hstart, place, hmeets⟩, hextension, huncovered⟩

/-- Entries count as sets. -/
theorem ofDirectory_congr {includes' ignores' : List String}
    (hincludes : ∀ entry, entry ∈ includes ↔ entry ∈ includes')
    (hignores : ∀ entry, entry ∈ ignores ↔ entry ∈ ignores') :
    (∀ kind, (ofDirectory files base includes ignores).filesOf kind =
      (ofDirectory files base includes' ignores').filesOf kind) ∧
    (ofDirectory files base includes ignores).skipped =
      (ofDirectory files base includes' ignores').skipped := by
  have hnil : includes = [] ↔ includes' = [] := by
    simp only [List.eq_nil_iff_forall_not_mem, hincludes]
  constructor
  · intro kind
    refine (pairwise_filesOf kind).eq_of_mem_iff (pairwise_filesOf kind) fun path => ?_
    simp only [mem_filesOf, Reaches, mem_starts, hincludes, hignores, hnil]
  · by_cases hempty : includes = []
    · rw [hempty, hnil.mp hempty]
      rfl
    · rw [skipped_eq_zero hempty, skipped_eq_zero fun h => hempty (hnil.mpr h)]

theorem reaches_append_iff {left right : List String} (hleft : left ≠ []) (hright : right ≠ [])
    {found : Path × Entry} :
    Reaches files base (left ++ right) found ↔
      Reaches files base left found ∨ Reaches files base right found := by
  simp only [Reaches, mem_starts, List.append_eq_nil_iff, hleft, hright, List.mem_append, false_and,
    false_or, or_and_right, exists_or]

/-- The files of two lists of included entries are those of each. -/
theorem filesOf_append {left right : List String} (hleft : left ≠ []) (hright : right ≠ [])
    (kind : Kind) :
    (ofDirectory files base (left ++ right) ignores).filesOf kind =
      sortedSet ((ofDirectory files base left ignores).filesOf kind ++
        (ofDirectory files base right ignores).filesOf kind) := by
  refine (pairwise_filesOf kind).eq_of_mem_iff (pairwise_sortedSet _) fun path => ?_
  simp only [mem_sortedSet, List.mem_append, mem_filesOf, reaches_append_iff hleft hright,
    exists_or, or_and_right]

/-- More ignored entries give fewer files. -/
theorem filesOf_subset {ignores' : List String} (h : ignores ⊆ ignores') (kind : Kind) :
    (ofDirectory files base includes ignores').filesOf kind ⊆
      (ofDirectory files base includes ignores).filesOf kind := by
  intro path hpath
  obtain ⟨hfile, hextension, huncovered⟩ := mem_filesOf.mp hpath
  exact mem_filesOf.mpr ⟨hfile, hextension, fun entry hentry => huncovered entry (h hentry)⟩

/-- What a scan of a tree returns if its included entries are paths. Each list holds the selected
files of its extension in order and no other. In any case the entries count as sets, included
entries that are put together give the files of both, and more ignored entries give fewer
files. -/
theorem filesOf_selection (tree : files.IsTree) (base : Path) {includes : List String}
    (hpaths : ∀ entry ∈ includes, isPattern entry = false) (ignores : List String) :
    let scan := ofDirectory files base
    (∀ kind, (∀ path, path ∈ (scan includes ignores).filesOf kind ↔
        Selected files base includes ignores kind.extension path) ∧
      ((scan includes ignores).filesOf kind).Pairwise (· < ·)) ∧
    (∀ includes' ignores', (∀ entry, entry ∈ includes' ↔ entry ∈ includes) →
      (∀ entry, entry ∈ ignores' ↔ entry ∈ ignores) →
      (∀ kind, (scan includes' ignores').filesOf kind = (scan includes ignores).filesOf kind) ∧
        (scan includes' ignores').skipped = (scan includes ignores).skipped) ∧
    (∀ more, includes ≠ [] → more ≠ [] → ∀ kind, (scan (includes ++ more) ignores).filesOf kind =
      sortedSet ((scan includes ignores).filesOf kind ++ (scan more ignores).filesOf kind)) ∧
    ∀ ignores', ignores ⊆ ignores' → ∀ kind,
      (scan includes ignores').filesOf kind ⊆ (scan includes ignores).filesOf kind := by
  refine ⟨fun kind => ⟨fun path => mem_filesOf_iff_selected tree hpaths, pairwise_filesOf kind⟩,
    fun includes' ignores' => ofDirectory_congr, fun more => filesOf_append, ?_⟩
  exact fun ignores' => filesOf_subset

/-- A form and its resources, in a directory with a copy that is to be ignored. -/
def formTree : Workspace :=
  ⟨[(["src"], .directory), (["src", "Form.cs"], .file []), (["src", "Form.resx"], .file []),
    (["src", "old"], .directory), (["src", "old", "Form.cs"], .file [])], []⟩

/-- The nested directory is met twice and its file is ignored; the entries of the configuration are
repeated and in another order. -/
theorem filesOf_selection_formTree :
    let scan := ofDirectory formTree "./"
    (scan ["src", "src/old"] ["src/old"]).filesOf .source = ["./src/Form.cs"] ∧
      Selected formTree "./" ["src", "src/old"] ["src/old"] sourceExtension "./src/Form.cs" ∧
      ¬Selected formTree "./" ["src", "src/old"] ["src/old"] sourceExtension "./src/old/Form.cs" ∧
      (scan ["src/old", "src", "src"] ["src/old"]).filesOf .resource = ["./src/Form.resx"] := by
  have htree : formTree.IsTree := by decide +kernel
  have hpaths : ∀ entry ∈ ["src", "src/old"], isPattern entry = false := by decide
  obtain ⟨hselected, hsets, -, -⟩ := filesOf_selection htree "./" hpaths ["src/old"]
  have hsource : (ofDirectory formTree "./" ["src", "src/old"] ["src/old"]).filesOf .source =
      ["./src/Form.cs"] := by decide +kernel
  have hmem := (hselected .source).1
  rw [hsource] at hmem
  refine ⟨hsource, (hmem _).mp (by decide), fun h => absurd ((hmem _).mpr h) (by decide), ?_⟩
  have hsame : ∀ entry, entry ∈ ["src/old", "src", "src"] ↔ entry ∈ ["src", "src/old"] := by
    intro entry
    simp only [List.mem_cons, List.not_mem_nil, or_false]
    tauto
  rw [(hsets _ ["src/old"] hsame fun _ => Iff.rfl).1]
  decide +kernel

end Scan

end ResourceLanguage
