import ResourceLanguage.Proofs.Glob.Expand
import ResourceLanguage.Proofs.Order
import ResourceLanguage.Proofs.Resource.Restoration
import ResourceLanguage.Scan

/-!
What a scan finds. Which files a scan finds is a matter of the tree and not of contents: after
files have been rewritten, a scan finds no file that it did not find before.
-/

namespace ResourceLanguage

open ResourceLanguage.Glob ResourceLanguage.Text

namespace Workspace

/-! ### Walks -/

theorem mem_below {files : Workspace} {place names : Place} {entry : Entry} :
    (names, entry) ∈ files.below place ↔
      names ≠ [] ∧ (place ++ names, entry) ∈ files.entries := by
  simp only [below, List.mem_filterMap]
  constructor
  · rintro ⟨⟨other, found⟩, hmem, hsome⟩
    dsimp only at hsome
    split at hsome
    · rename_i hbelow
      cases hsome
      rw [Bool.and_eq_true, List.isPrefixOf_iff_prefix, decide_eq_true_eq] at hbelow
      obtain ⟨⟨names, rfl⟩, hne⟩ := hbelow
      rw [List.drop_left]
      exact ⟨fun hnil => hne (by rw [hnil, List.append_nil]), hmem⟩
    · cases hsome
  · rintro ⟨hne, hmem⟩
    refine ⟨_, hmem, ?_⟩
    simp [hne]

/-- A walk reaches the entry at its start, and every entry below that under a path that the names
on the way make. -/
theorem mem_walk {files : Workspace} {path : Path} {found : Path × Entry} :
    found ∈ (files.walk path).toOption.getD [] ↔
      ∃ place, files.resolve path = .ok place ∧
        (files.entry? place = some found.2 ∧ found.1 = path ∨
          ∃ names, names ≠ [] ∧ (place ++ names, found.2) ∈ files.entries ∧
            found.1 = names.foldl Path.join path) := by
  cases hpath : files.resolve path with
  | error error =>
      have hwalk : files.walk path = .error error := by
        rw [walk, hpath]
        rfl
      simp [hwalk, Except.toOption]
  | ok place =>
      have hwalk : (files.walk path).toOption.getD [] =
          ((files.entry? place).toList.map fun entry => (path, entry)) ++
            (files.below place).map fun below => (below.1.foldl Path.join path, below.2) := by
        rw [walk, hpath]
        rfl
      obtain ⟨reached, entry⟩ := found
      rw [hwalk, List.mem_append, List.mem_map, List.mem_map]
      constructor
      · rintro (⟨top, htop, heq⟩ | ⟨⟨names, below⟩, hbelow, heq⟩)
        · cases heq
          exact ⟨place, rfl, .inl ⟨Option.mem_toList.mp htop, rfl⟩⟩
        · cases heq
          obtain ⟨hne, hmem⟩ := mem_below.mp hbelow
          exact ⟨place, rfl, .inr ⟨names, hne, hmem, rfl⟩⟩
      · rintro ⟨place', hplace, h⟩
        cases hplace
        rcases h with ⟨htop, hreached⟩ | ⟨names, hne, hmem, hreached⟩
        · exact .inl ⟨entry, Option.mem_toList.mpr htop, Prod.ext hreached.symm rfl⟩
        · exact .inr ⟨(names, entry), mem_below.mpr ⟨hne, hmem⟩, Prod.ext hreached.symm rfl⟩

/-! ### Rewritten files -/

/-- Every entry of `after` is one of `files`, up to the content of a file. -/
structure Rewritten (after files : Workspace) : Prop extends SameTree after files where
  entries : ∀ place entry, (place, entry) ∈ after.entries →
    ∃ old, (place, old) ∈ files.entries ∧ old.isDirectory = entry.isDirectory

namespace Rewritten

theorem refl (files : Workspace) : Rewritten files files :=
  ⟨.refl files, fun _ entry h => ⟨entry, h, rfl⟩⟩

theorem trans {first second third : Workspace} (h : Rewritten first second)
    (h' : Rewritten second third) : Rewritten first third := by
  refine ⟨h.toSameTree.trans h'.toSameTree, fun place entry hmem => ?_⟩
  obtain ⟨middle, hmiddle, hkind⟩ := h.entries place entry hmem
  obtain ⟨old, hold, hkind'⟩ := h'.entries place middle hmiddle
  exact ⟨old, hold, hkind'.trans hkind⟩

variable {after files : Workspace}

theorem exists_below (h : Rewritten after files) {place names : Place} {entry : Entry}
    (hmem : (names, entry) ∈ after.below place) :
    ∃ old, (names, old) ∈ files.below place ∧ old.isDirectory = entry.isDirectory := by
  obtain ⟨hne, hentry⟩ := mem_below.mp hmem
  obtain ⟨old, hold, hkind⟩ := h.entries _ entry hentry
  exact ⟨old, mem_below.mpr ⟨hne, hold⟩, hkind⟩

/-- A walk reaches nothing that it did not reach before. -/
theorem exists_walk (h : Rewritten after files) {path : Path} {found : Path × Entry}
    (hfound : found ∈ (after.walk path).toOption.getD []) :
    ∃ old, (found.1, old) ∈ (files.walk path).toOption.getD [] ∧
      old.isDirectory = found.2.isDirectory := by
  obtain ⟨place, hplace, hfound⟩ := mem_walk.mp hfound
  rw [h.resolve_eq] at hplace
  rcases hfound with ⟨hentry, hpath⟩ | ⟨names, hne, hmem, hpath⟩
  · have hkind := h.kinds place
    rw [hentry, Option.map_some, eq_comm, Option.map_eq_some_iff] at hkind
    obtain ⟨old, hold, hkind⟩ := hkind
    exact ⟨old, mem_walk.mpr ⟨place, hplace, .inl ⟨hold, hpath⟩⟩, hkind⟩
  · obtain ⟨old, hold, hkind⟩ := h.entries _ _ hmem
    exact ⟨old, mem_walk.mpr ⟨place, hplace, .inr ⟨names, hne, hold, hpath⟩⟩, hkind⟩

theorem exists_descendant (h : Rewritten after files) {directory path : Path} {names : Place}
    {entry : Entry} (hmem : (path, names, entry) ∈ descendants after directory) :
    ∃ old, (path, names, old) ∈ descendants files directory ∧
      old.isDirectory = entry.isDirectory := by
  unfold descendants at hmem ⊢
  rw [h.resolve_eq] at hmem
  cases hplace : files.resolve directory with
  | error error =>
      rw [hplace] at hmem
      cases hmem
  | ok place =>
      rw [hplace] at hmem
      obtain ⟨⟨names, entry⟩, hbelow, heq⟩ := List.mem_map.mp hmem
      cases heq
      obtain ⟨old, hold, hkind⟩ := h.exists_below hbelow
      exact ⟨old, List.mem_map.mpr ⟨(names, old), hold, rfl⟩, hkind⟩

theorem leads_eq (h : Rewritten after files) (path : Path) (name : String) :
    leads after path name = leads files path name := by
  rw [leads, leads, h.isDirectory_eq, h.pathExists_eq]

/-- A pattern matches no path that it did not match before. -/
theorem matchingPaths_subset (h : Rewritten after files) (patterns : List Pattern) (path : Path) :
    matchingPaths after patterns path ⊆ matchingPaths files patterns path := by
  induction hlength : patterns.length using Nat.strong_induction_on
    generalizing patterns path with
  | h length ih =>
      intro reached hreached
      cases patterns with
      | nil => rwa [mem_matchingPaths_nil] at hreached ⊢
      | cons pattern rest =>
          have hmore {more : List Pattern} (hsuffix : more <:+ rest) (next : Path) :
              matchingPaths after more next ⊆ matchingPaths files more next := by
            have hle := hsuffix.length_le
            rw [List.length_cons] at hlength
            exact ih more.length (by omega) more next rfl
          cases hliteral : pattern.literal? with
          | some name =>
              rw [mem_matchingPaths_of_literal hliteral] at hreached ⊢
              rw [h.leads_eq] at hreached
              exact ⟨hreached.1, hmore (List.suffix_refl rest) _ hreached.2⟩
          | none =>
              rw [mem_matchingPaths_of_wildcards hliteral] at hreached ⊢
              rw [h.isDirectory_eq] at hreached
              refine ⟨hreached.1, ?_⟩
              rcases hreached.2 with ⟨hsingle, found, hfound, hreached⟩ |
                ⟨found, names, entry, more, hmem, hcontinues, hreached⟩
              · exact .inl ⟨hsingle, found, hfound, hmore (List.suffix_refl rest) _ hreached⟩
              · obtain ⟨old, hold, hkind⟩ := h.exists_descendant hmem
                exact .inr ⟨found, names, old, more, hold, hcontinues.of_isDirectory_eq hkind,
                  hmore hcontinues.suffix _ hreached⟩

end Rewritten

theorem rewritten_restoreAt (files : Workspace) (place : Place) :
    Rewritten (files.restoreAt place) files := by
  refine ⟨files.sameTree_restoreAt place, fun other entry hmem => ?_⟩
  rcases files.unmarked_or_marked place with h | ⟨content, hcontent, hmarked⟩
  · rw [restoreAt_of_unmarked h] at hmem
    exact ⟨entry, hmem, rfl⟩
  · have hentry := content?_eq_some_iff.mp hcontent
    have hplace := ne_nil_of_entry?_file hentry
    rw [restoreAt_of_marked hcontent hmarked, put_of_mem (any_entries hplace hentry)] at hmem
    obtain ⟨old, hold, heq⟩ := List.mem_map.mp hmem
    rw [setEntry] at heq
    split at heq
    · rename_i hkey
      cases heq
      rw [hkey]
      exact ⟨.file content, mem_entries hplace hentry, rfl⟩
    · exact ⟨entry, by rwa [heq] at hold, rfl⟩

theorem rewritten_restoreAll (files : Workspace) (places : List Place) :
    Rewritten (files.restoreAll places) files := by
  induction places generalizing files with
  | nil => exact .refl files
  | cons place places ih => exact (ih _).trans (files.rewritten_restoreAt place)

end Workspace

namespace Scan

/-! ### The files of a scan -/

/-- What a scan comes across: everything that can be reached from one of its starts. -/
def Reaches (files : Workspace) (base : Path) (includes : List String) (found : Path × Entry) :
    Prop :=
  ∃ start ∈ (starts files base includes).1, found ∈ (files.walk start).toOption.getD []

theorem mem_select {exclusion : Exclusion} {extension : String} {found : List (Path × Entry)}
    {path : Path} :
    path ∈ select exclusion extension found ↔
      ∃ entry, (path, entry) ∈ found ∧ selects exclusion extension (path, entry) = true := by
  simp [select]

variable {files : Workspace} {base : Path} {includes ignores : List String} {path : Path}

theorem mem_sourceFiles :
    path ∈ (ofDirectory files base includes ignores).sourceFiles ↔
      ∃ entry, Reaches files base includes (path, entry) ∧
        selects (.ofEntries base ignores) sourceExtension (path, entry) = true := by
  simp [ofDirectory, mem_select, Reaches]

theorem mem_resourceFiles :
    path ∈ (ofDirectory files base includes ignores).resourceFiles ↔
      ∃ entry, Reaches files base includes (path, entry) ∧
        selects (.ofEntries base ignores) resourceExtension (path, entry) = true := by
  simp [ofDirectory, mem_select, Reaches]

theorem extension?_of_mem_resourceFiles
    (h : path ∈ (ofDirectory files base includes ignores).resourceFiles) :
    path.extension? = some resourceExtension := by
  obtain ⟨entry, -, hselects⟩ := mem_resourceFiles.mp h
  rw [selects, Bool.and_eq_true, beq_iff_eq] at hselects
  exact hselects.2

theorem mem_startsOf_of_path {entry : String} (hpath : isPattern entry = false) {start : Path} :
    start ∈ (startsOf files base entry).1 ↔
      files.pathExists (base.join entry) = true ∧ start = base.join entry := by
  simp only [startsOf, hpath, Bool.false_eq_true, if_false]
  cases files.pathExists (base.join entry) <;> simp

variable {after : Workspace}

theorem expand_subset (h : after.Rewritten files) {text : String} {paths : List Path}
    (hpaths : expand after text = .ok paths) :
    ∃ old, expand files text = .ok old ∧ paths ⊆ old := by
  unfold expand at hpaths ⊢
  cases hparse : Pattern.parse text with
  | error error =>
      rw [hparse] at hpaths
      cases hpaths
  | ok pattern =>
      simp only [hparse, bind, Except.bind] at hpaths ⊢
      generalize (List.mapM _ _ : Except PatternError (List Pattern)) = reading at hpaths ⊢
      cases reading with
      | error error => cases hpaths
      | ok patterns =>
          cases hpaths
          exact ⟨_, rfl, h.matchingPaths_subset patterns _⟩

theorem startsOf_subset (h : after.Rewritten files) (base : Path) (entry : String) :
    (startsOf after base entry).1 ⊆ (startsOf files base entry).1 := by
  unfold startsOf
  split
  · split
    · rename_i paths hpaths
      obtain ⟨old, hold, hsubset⟩ := expand_subset h hpaths
      rw [hold, show after.isDirectory = files.isDirectory from funext h.isDirectory_eq]
      exact List.filter_subset _ hsubset
    · exact List.nil_subset _
  · simp only [h.pathExists_eq]
    exact List.Subset.refl _

theorem Reaches.of_rewritten (h : after.Rewritten files) {found : Path × Entry}
    (hreaches : Reaches after base includes found) :
    ∃ old, Reaches files base includes (found.1, old) ∧
      old.isDirectory = found.2.isDirectory := by
  obtain ⟨start, hstart, hfound⟩ := hreaches
  obtain ⟨old, hold, hkind⟩ := h.exists_walk hfound
  refine ⟨old, ⟨start, ?_, hold⟩, hkind⟩
  unfold starts at hstart ⊢
  split at hstart
  · rwa [if_pos ‹_›]
  · rw [if_neg ‹_›]
    simp only [List.mem_flatMap, List.mem_map] at hstart ⊢
    obtain ⟨_, ⟨entry, hentry, rfl⟩, hstart⟩ := hstart
    exact ⟨_, ⟨entry, hentry, rfl⟩, startsOf_subset h base entry hstart⟩

/-- After files have been rewritten, a scan finds no resource file that it did not find before. -/
theorem resourceFiles_subset (h : after.Rewritten files) (base : Path)
    (includes ignores : List String) :
    (ofDirectory after base includes ignores).resourceFiles ⊆
      (ofDirectory files base includes ignores).resourceFiles := by
  intro path hpath
  obtain ⟨entry, hreaches, hselects⟩ := mem_resourceFiles.mp hpath
  obtain ⟨old, hold, hkind⟩ := hreaches.of_rewritten h
  refine mem_resourceFiles.mpr ⟨old, hold, ?_⟩
  rw [selects, Entry.isFile] at hselects ⊢
  rwa [hkind]

end Scan

end ResourceLanguage
