import ResourceLanguage.Proofs.Glob.Spelling
import ResourceLanguage.Proofs.Scan

/-!
Ignored paths. A scan passes over a file if the components of an ignored path begin those of the
path under which it finds the file, so an ignored path has an effect only as far as the two are
spelled alike. They are if all included entries are paths. An included pattern makes a difference
if the base directory begins with a `.`, which the ignored path keeps and the paths that match the
pattern do not.
-/

namespace ResourceLanguage

open ResourceLanguage.Glob ResourceLanguage.Path

/-! ### Spelling -/

namespace Workspace

/-- A path leads to the place of another path, or to a place below it. -/
def LiesIn (files : Workspace) (path outer : Path) : Prop :=
  ∃ place stop, files.resolve outer = .ok place ∧ files.resolve path = .ok stop ∧ place <+: stop

/-- Of two paths that are spelled alike, one that leads into the place of the other begins with
the components of the other. -/
theorem startsWith_of_liesIn {files : Workspace} {path outer : Path}
    (hlies : files.LiesIn path outer) (halike : path.Alike outer) :
    path.startsWith outer = true := by
  obtain ⟨place, stop, hplace, hstop, hprefix⟩ := hlies
  obtain ⟨stem, names, names', hpath, houter⟩ := halike
  have hstop := eq_foldl_enter_of_resolve hstop
  have hplace := eq_foldl_enter_of_resolve hplace
  rw [hpath, List.foldl_append, foldl_enter_names] at hstop
  rw [houter, List.foldl_append, foldl_enter_names] at hplace
  rw [hstop, hplace, List.prefix_append_right_inj] at hprefix
  rw [startsWith, List.isPrefixOf_iff_prefix, hpath, houter, List.prefix_append_right_inj]
  exact hprefix.map _

end Workspace

/-! ### Exclusions -/

namespace Exclusion

variable {base path : Path} {ignores : List String} {entry : String}

theorem excludes_of_startsWith (hentry : entry ∈ ignores) (hpath : isPattern entry = false)
    (h : path.startsWith (base.join entry) = true) :
    (ofEntries base ignores).excludes path = true := by
  have hmem : base.join entry ∈ (ofEntries base ignores).paths :=
    List.mem_map_of_mem (List.mem_filter.mpr ⟨hentry, by rw [hpath]; rfl⟩)
  rw [excludes, Bool.or_eq_true]
  exact .inl (List.any_eq_true.mpr ⟨_, hmem, h⟩)

/-- An ignored path that does not begin a path makes no difference to it. -/
theorem excludes_of_not_startsWith (hpath : isPattern entry = false)
    (h : path.startsWith (base.join entry) = false) :
    (ofEntries base ignores).excludes path =
      (ofEntries base (ignores.filter (· ≠ entry))).excludes path := by
  have hpatterns : (ignores.filter (· ≠ entry)).filter isPattern = ignores.filter isPattern := by
    rw [List.filter_filter]
    refine List.filter_congr fun other _ => ?_
    by_cases hother : other = entry
    · rw [hother, hpath]
      rfl
    · simp [hother]
  simp only [excludes, ofEntries, hpatterns, List.any_map, List.any_filter]
  congr 2
  funext other
  by_cases hother : other = entry
  · simp [hother, h]
  · simp [hother]

end Exclusion

/-! ### The starts of a scan -/

namespace Scan

variable {files : Workspace} {base : Path} {includes ignores : List String}

/-- A file is found under the path of a start with names after it. -/
theorem exists_names_of_mem_walk (named : files.WellNamed) {start : Path} {found : Path × Entry}
    (h : found ∈ (files.walk start).toOption.getD []) :
    ∃ names : Place, found.1.components = start.components ++ names.map .name := by
  obtain ⟨place, -, ⟨-, hpath⟩ | ⟨names, -, hentry, hpath⟩⟩ := Workspace.mem_walk.mp h
  · exact ⟨[], by rw [hpath, List.map_nil, List.append_nil]⟩
  · refine ⟨names, ?_⟩
    rw [hpath, components_foldl_join start fun name hname =>
      named _ hentry name (List.mem_append_right place hname)]

/-- An included pattern that leads down has its starts spelled without the `.` in front of the base
directory. -/
theorem exists_names_of_pattern (named : files.WellNamed) (hbase : IsLiteral base.toList)
    {entry : String} (hpattern : isPattern entry = true) (hdown : IsDownward entry) {start : Path}
    (h : start ∈ (startsOf files base entry).1) :
    ∃ names : Place, start.components = base.trail ++ names.map .name := by
  simp only [startsOf, hpattern, if_true] at h
  split at h
  · rename_i paths hpaths
    obtain ⟨names, -, hnames⟩ := components_of_mem_expand named hbase hdown hpattern hpaths
      (List.mem_filter.mp h).1
    exact ⟨names, hnames⟩
  · cases h

/-- Included entries whose starts are spelled as from the base directory. -/
structure SpelledFromBase (base : Path) (includes : List String) : Prop where
  path : ∀ entry ∈ includes, isPattern entry = false → LeadsDown base entry
  pattern : ∀ entry ∈ includes, isPattern entry = true →
    IsDownward entry ∧ IsLiteral base.toList ∧ base.components.head? ≠ some .current

instance (base : Path) (includes : List String) : Decidable (SpelledFromBase base includes) :=
  decidable_of_iff ((∀ entry ∈ includes, isPattern entry = false → LeadsDown base entry) ∧
      ∀ entry ∈ includes, isPattern entry = true →
        IsDownward entry ∧ IsLiteral base.toList ∧ base.components.head? ≠ some .current)
    ⟨fun ⟨path, pattern⟩ => ⟨path, pattern⟩, fun h => ⟨h.path, h.pattern⟩⟩

theorem SpelledFromBase.exists_names (hspelled : SpelledFromBase base includes)
    (named : files.WellNamed) {start : Path} (h : start ∈ (starts files base includes).1) :
    ∃ names : Place, start.components = base.components ++ names.map .name := by
  unfold starts at h
  split at h
  · rw [List.mem_singleton.mp h]
    exact ⟨[], (List.append_nil _).symm⟩
  · simp only [List.mem_flatMap, List.mem_map] at h
    obtain ⟨_, ⟨entry, hentry, rfl⟩, hstart⟩ := h
    cases hpattern : isPattern entry with
    | false =>
        rw [((mem_startsOf_of_path hpattern).mp hstart).2]
        exact (hspelled.path entry hentry hpattern).exists_names
    | true =>
        obtain ⟨hdown, hliteral, hhead⟩ := hspelled.pattern entry hentry hpattern
        rw [components_of_head?_ne hhead]
        exact exists_names_of_pattern named hliteral hpattern hdown hstart

/-! ### Ignored paths -/

theorem exists_of_mem_files {path : Path}
    (h : path ∈ (ofDirectory files base includes ignores).sourceFiles ++
      (ofDirectory files base includes ignores).resourceFiles) :
    ∃ entry, Reaches files base includes (path, entry) ∧
      (Exclusion.ofEntries base ignores).excludes path = false := by
  rcases List.mem_append.mp h with hsource | hresource
  · obtain ⟨entry, hreaches, hselects⟩ := mem_sourceFiles.mp hsource
    exact ⟨entry, hreaches, by simp_all [selects]⟩
  · obtain ⟨entry, hreaches, hselects⟩ := mem_resourceFiles.mp hresource
    exact ⟨entry, hreaches, by simp_all [selects]⟩

/-- A file at or below an ignored path is found only under a path that is spelled otherwise. -/
theorem not_alike_of_liesIn {entry : String} (hentry : entry ∈ ignores)
    (hpath : isPattern entry = false) {path : Path}
    (h : path ∈ (ofDirectory files base includes ignores).sourceFiles ++
      (ofDirectory files base includes ignores).resourceFiles)
    (hlies : files.LiesIn path (base.join entry)) : ¬path.Alike (base.join entry) := by
  intro halike
  obtain ⟨-, -, hexcludes⟩ := exists_of_mem_files h
  have hstarts := Workspace.startsWith_of_liesIn hlies halike
  rw [Exclusion.excludes_of_startsWith hentry hpath hstarts] at hexcludes
  cases hexcludes

/-- What a scan does with an ignored path. It returns a file at or below the path only under a
spelling that differs from that of the path in more than names at the end. If the ignored path and
all included entries lead down from the base directory it returns no such file, but for included
patterns only if the base directory does not begin with a `.`. If the base directory does, the
ignored path makes no difference to the files that are found by an included pattern. -/
theorem ignored_path_by_spelling (named : files.WellNamed) (base : Path) (includes : List String)
    {entry : String} (hentry : entry ∈ ignores) (hpath : isPattern entry = false) :
    let scan := ofDirectory files base includes ignores
    (∀ path ∈ scan.sourceFiles ++ scan.resourceFiles, files.LiesIn path (base.join entry) →
      ¬path.Alike (base.join entry)) ∧
    (LeadsDown base entry → SpelledFromBase base includes →
      ∀ path ∈ scan.sourceFiles ++ scan.resourceFiles, ¬files.LiesIn path (base.join entry)) ∧
    (LeadsDown base entry → base.components.head? = some .current → IsLiteral base.toList →
      ∀ included ∈ includes, isPattern included = true → IsDownward included →
        ∀ start ∈ (startsOf files base included).1,
          ∀ found ∈ (files.walk start).toOption.getD [],
            (Exclusion.ofEntries base ignores).excludes found.1 =
              (Exclusion.ofEntries base (ignores.filter (· ≠ entry))).excludes found.1) := by
  refine ⟨fun path h hlies => not_alike_of_liesIn hentry hpath h hlies, ?_, ?_⟩
  · intro hdown hspelled path h hlies
    refine not_alike_of_liesIn hentry hpath h hlies ?_
    obtain ⟨found, ⟨start, hstart, hwalk⟩, -⟩ := exists_of_mem_files h
    obtain ⟨front, hfront⟩ := hspelled.exists_names named hstart
    obtain ⟨names, hnames⟩ := exists_names_of_mem_walk named hwalk
    obtain ⟨ignored, hignored⟩ := hdown.exists_names
    refine ⟨base.components, front ++ names, ignored, ?_, hignored⟩
    rw [hnames, hfront, List.map_append, List.append_assoc]
  · intro hdown hcurrent hliteral included _ hpattern hincluded start hstart found hfound
    refine Exclusion.excludes_of_not_startsWith hpath ?_
    obtain ⟨front, hfront⟩ := exists_names_of_pattern named hliteral hpattern hincluded hstart
    obtain ⟨names, hnames⟩ := exists_names_of_mem_walk named hfound
    obtain ⟨ignored, hignored⟩ := hdown.exists_names
    rw [startsWith, Bool.eq_false_iff, Ne, List.isPrefixOf_iff_prefix]
    intro hprefix
    -- The ignored path has a `.` in front, and the path of the file has none anywhere.
    have hmem : Component.current ∈ (base.join entry).components := by
      rw [hignored]
      exact List.mem_append_left _ (List.mem_of_mem_head? hcurrent)
    have hfoundMem := hprefix.subset hmem
    rw [hnames, hfront] at hfoundMem
    simp [base.current_notMem_trail] at hfoundMem

/-- A directory with old files beside one with new files. -/
def legacyTree : Workspace :=
  ⟨[(["src"], .directory), (["src", "Legacy"], .directory),
    (["src", "Legacy", "Old.cs"], .file []), (["src", "New"], .directory),
    (["src", "New", "New.cs"], .file [])], []⟩

/-- The same directory is ignored if the pattern is taken from the directory above by its name, and
it is not if the pattern is taken from the current directory. -/
theorem ignored_path_by_spelling_legacyTree :
    (∀ path ∈ (ofDirectory legacyTree "src" ["*", "New"] ["Legacy"]).sourceFiles ++
        (ofDirectory legacyTree "src" ["*", "New"] ["Legacy"]).resourceFiles,
      ¬legacyTree.LiesIn path (join "src" "Legacy")) ∧
    (Exclusion.ofEntries "./" ["src/Legacy"]).excludes "src/Legacy/Old.cs" =
      (Exclusion.ofEntries "./" []).excludes "src/Legacy/Old.cs" := by
  have hnamed : legacyTree.WellNamed := by decide +kernel
  constructor
  · obtain ⟨-, hnone, -⟩ := ignored_path_by_spelling hnamed "src" ["*", "New"]
      (List.mem_singleton_self "Legacy") (by decide)
    exact hnone (by decide +kernel) (by decide +kernel)
  · obtain ⟨-, -, hsame⟩ := ignored_path_by_spelling hnamed "./" ["src/*"]
      (List.mem_singleton_self "src/Legacy") (by decide)
    exact hsame (by decide +kernel) (by decide +kernel) (by decide +kernel) "src/*"
      (List.mem_singleton_self _) (by decide) (by decide +kernel) "src/Legacy" (by decide +kernel)
      ("src/Legacy/Old.cs", .file []) (by decide +kernel)

/-- A scan returns a file at or below an ignored path. -/
def Returns (files : Workspace) (base : Path) (includes : List String) (ignored : String)
    (path : Path) : Prop :=
  path ∈ (ofDirectory files base includes [ignored]).sourceFiles ∧
    files.LiesIn path (base.join ignored)

/-- A file in an ignored directory is returned if a pattern is taken from the current directory, and
if the ignored path goes up. -/
theorem ignored_path_returned :
    Returns legacyTree "./" ["src/*"] "src/Legacy" "src/Legacy/Old.cs" ∧
      Returns legacyTree "src" [] "../src/Legacy" "src/Legacy/Old.cs" := by
  have hlies (base ignored : Path)
      (h : legacyTree.resolve (base.join ignored) = .ok ["src", "Legacy"]) :
      legacyTree.LiesIn "src/Legacy/Old.cs" (base.join ignored) :=
    ⟨_, ["src", "Legacy", "Old.cs"], h, by decide +kernel, by decide⟩
  constructor
  · exact ⟨mem_sourceFiles.mpr ⟨.file [], ⟨"src/Legacy", by decide +kernel, by decide +kernel⟩,
      by decide +kernel⟩, hlies _ _ (by decide +kernel)⟩
  · exact ⟨mem_sourceFiles.mpr ⟨.file [], ⟨"src", by decide +kernel, by decide +kernel⟩,
      by decide +kernel⟩, hlies _ _ (by decide +kernel)⟩

end Scan

end ResourceLanguage
