import ResourceLanguage.Proofs.Path
import ResourceLanguage.Proofs.Scan

/-!
Trees of directories and files, and walks through them. A walk begins at the entry that a path leads
to and goes on from each directory to the entries in it, adding their names to the path. So every
path that it comes across leads to the entry that was met under it.
-/

namespace ResourceLanguage.Workspace

/-- The entries form a tree: they have names, no place has two of them, and each is in a
directory. -/
structure IsTree (files : Workspace) : Prop where
  named : files.WellNamed
  distinct : (files.entries.map (·.1)).Nodup
  inside : ∀ found ∈ files.entries, found.1 ≠ [] ∧ files.hasDirectory found.1.dropLast = true

instance : DecidablePred IsTree := fun files =>
  decidable_of_iff (files.WellNamed ∧ (files.entries.map (·.1)).Nodup ∧
      ∀ found ∈ files.entries, found.1 ≠ [] ∧ files.hasDirectory found.1.dropLast = true)
    ⟨fun ⟨named, distinct, inside⟩ => ⟨named, distinct, inside⟩,
      fun h => ⟨h.named, h.distinct, h.inside⟩⟩

theorem hasDirectory_iff {files : Workspace} {place : Place} :
    files.hasDirectory place = true ↔ files.entry? place = some .directory := by
  rw [hasDirectory, Option.any_eq_true]
  constructor
  · rintro ⟨entry, hentry, hdirectory⟩
    cases entry with
    | directory => exact hentry
    | file content => cases hdirectory
  · exact fun h => ⟨.directory, h, rfl⟩

namespace IsTree

variable {files : Workspace} (tree : files.IsTree)
include tree

/-- Looking up a place finds the entry that is there. -/
theorem entry?_of_mem {place : Place} {entry : Entry} (h : (place, entry) ∈ files.entries) :
    files.entry? place = some entry := by
  have hplace : place ≠ [] := (tree.inside _ h).1
  have hsome : (files.entries.find? (·.1 == place)).isSome = true :=
    List.find?_isSome.mpr ⟨_, h, beq_self_eq_true place⟩
  obtain ⟨found, hfound⟩ := Option.isSome_iff_exists.mp hsome
  have hkey : found.1 = place := by simpa using List.find?_some hfound
  have hentry : found = (place, entry) :=
    List.inj_on_of_nodup_map tree.distinct (List.mem_of_find?_eq_some hfound) h hkey
  unfold entry?
  rw [if_neg (by simpa using hplace), hfound, hentry]
  rfl

/-- What has something below it is a directory. -/
theorem hasDirectory_of_append {place names : Place} (hne : names ≠ [])
    (h : (files.entry? (place ++ names)).isSome = true) : files.hasDirectory place = true := by
  induction names using List.reverseRecOn with
  | nil => exact absurd rfl hne
  | append_singleton names name ih =>
      obtain ⟨entry, hentry⟩ := Option.isSome_iff_exists.mp h
      rw [← List.append_assoc] at hentry
      have houter := (tree.inside _ (mem_entries (by simp) hentry)).2
      rw [List.dropLast_concat] at houter
      by_cases hnames : names = []
      · rwa [hnames, List.append_nil] at houter
      · exact ih hnames (Option.isSome_iff_exists.mpr ⟨_, hasDirectory_iff.mp houter⟩)

theorem isName_of_append {place names : Place} {entry : Entry}
    (h : files.entry? (place ++ names) = some entry) : ∀ name ∈ names, Path.IsName name := by
  intro name hname
  have hmem : name ∈ place ++ names := List.mem_append_right place hname
  exact tree.named _ (mem_entries (List.ne_nil_of_mem hmem) h) name hmem

end IsTree

/-! ### Walks -/

/-- What a walk meets from a path on: the entry that the path leads to, and the entries in each
directory that it meets. -/
inductive Meets (files : Workspace) (start : Path) : Path → Place → Entry → Prop where
  | start {place : Place} {entry : Entry} (leads : files.resolve start = .ok place)
      (found : files.entry? place = some entry) : Meets files start start place entry
  | child {path : Path} {place : Place} {name : String} {entry : Entry}
      (outer : Meets files start path place .directory)
      (found : files.entry? (place ++ [name]) = some entry) :
      Meets files start (path.join name) (place ++ [name]) entry

namespace Meets

variable {files : Workspace} {start path : Path} {place : Place} {entry : Entry}

theorem found (h : files.Meets start path place entry) : files.entry? place = some entry := by
  cases h with
  | start _ found => exact found
  | child _ found => exact found

theorem exists_names (h : files.Meets start path place entry) :
    ∃ top names, files.resolve start = .ok top ∧ place = top ++ names ∧
      path = names.foldl Path.join start := by
  induction h with
  | start leads _ => exact ⟨_, [], leads, (List.append_nil _).symm, rfl⟩
  | @child path place name entry _ _ ih =>
      obtain ⟨top, names, htop, rfl, rfl⟩ := ih
      refine ⟨top, names ++ [name], htop, List.append_assoc _ _ _, ?_⟩
      rw [List.foldl_append]
      rfl

/-- In a tree a walk meets all that is below its start. -/
theorem of_names (tree : files.IsTree) {top names : Place} (htop : files.resolve start = .ok top)
    (h : files.entry? (top ++ names) = some entry) :
    files.Meets start (names.foldl Path.join start) (top ++ names) entry := by
  induction names using List.reverseRecOn generalizing entry with
  | nil =>
      rw [List.append_nil] at h ⊢
      exact .start htop h
  | append_singleton names name ih =>
      rw [← List.append_assoc] at h ⊢
      have houter : files.hasDirectory (top ++ names) = true :=
        tree.hasDirectory_of_append (List.cons_ne_nil name [])
          (Option.isSome_iff_exists.mpr ⟨entry, h⟩)
      rw [List.foldl_append]
      exact .child (ih (hasDirectory_iff.mp houter)) h

/-- A path that a walk comes across leads to the entry that was met. -/
theorem resolve_eq (tree : files.IsTree) (h : files.Meets start path place entry) :
    files.resolve path = .ok place := by
  induction h with
  | start leads _ => exact leads
  | @child path place name entry outer found ih =>
      have hname := tree.isName_of_append found name (List.mem_singleton_self name)
      rw [resolve_join_iff (resolve_eq_ok_iff.mp ih).1 hname]
      exact ⟨place, ih, hasDirectory_iff.mpr outer.found, by rw [found]; rfl, rfl⟩

end Meets

/-- A walk through a tree returns what it meets. -/
theorem mem_walk_iff_meets {files : Workspace} (tree : files.IsTree) {start : Path}
    {found : Path × Entry} :
    found ∈ (files.walk start).toOption.getD [] ↔
      ∃ place, files.Meets start found.1 place found.2 := by
  rw [mem_walk]
  constructor
  · rintro ⟨top, htop, ⟨hentry, hpath⟩ | ⟨names, -, hmem, hpath⟩⟩
    · rw [hpath]
      exact ⟨top, .start htop hentry⟩
    · rw [hpath]
      exact ⟨top ++ names, .of_names tree htop (tree.entry?_of_mem hmem)⟩
  · rintro ⟨place, hmeets⟩
    have hfound := hmeets.found
    obtain ⟨top, names, htop, rfl, hpath⟩ := hmeets.exists_names
    refine ⟨top, htop, ?_⟩
    by_cases hnames : names = []
    · subst hnames
      rw [List.append_nil] at hfound
      exact .inl ⟨hfound, hpath⟩
    · exact .inr ⟨names, hnames, mem_entries (List.append_ne_nil_of_right_ne_nil top hnames) hfound,
        hpath⟩

end ResourceLanguage.Workspace
