import ResourceLanguage.Proofs.Analysis.Merging
import ResourceLanguage.Proofs.Fix.Declared
import ResourceLanguage.Proofs.Glob.Expanded
import ResourceLanguage.Proofs.Scan.Selection

/-!
Included entries that overlap. A scan lists a file under the path on which it comes to the file, and
a file that is below two starts is listed once only if both starts spell the way to it alike. Plain
entries do, if all of them are paths or all are patterns. A path keeps the base directory as it is
written, and a pattern leaves out its empty pieces and a `.` in front, so a file that is found from
a path and from a pattern is listed twice if there is something to leave out.
-/

namespace ResourceLanguage

open ResourceLanguage.CSharp ResourceLanguage.Glob ResourceLanguage.Path ResourceLanguage.Text

namespace Scan

/-! ### Listed files -/

def listed (scan : Scan) : List Path := scan.sourceFiles ++ scan.resourceFiles

/-- Of some paths no two lead to the same place. -/
def OnceEach (files : Workspace) (paths : List Path) : Prop := (paths.map files.resolve).Nodup

variable {files : Workspace} {base : Path} {includes ignores : List String}

theorem mem_listed {scan : Scan} {path : Path} :
    path ∈ scan.listed ↔ ∃ kind, path ∈ scan.filesOf kind := by
  rw [listed, List.mem_append]
  constructor
  · rintro (hsource | hresource)
    · exact ⟨.source, hsource⟩
    · exact ⟨.resource, hresource⟩
  · rintro ⟨_ | _, hpath⟩
    · exact .inl hpath
    · exact .inr hpath

theorem nodup_listed : (ofDirectory files base includes ignores).listed.Nodup := by
  have hnodup (kind : Kind) : ((ofDirectory files base includes ignores).filesOf kind).Nodup :=
    (pairwise_filesOf kind).imp ne_of_lt
  refine List.nodup_append.mpr ⟨hnodup .source, hnodup .resource, ?_⟩
  rintro path hsource _ hresource rfl
  have hextension (kind : Kind)
      (h : path ∈ (ofDirectory files base includes ignores).filesOf kind) :
      path.extension? = some kind.extension := (mem_filesOf.mp h).2.1
  have hsame := (hextension .source hsource).symm.trans (hextension .resource hresource)
  revert hsame
  decide

theorem onceEach_listed_iff :
    OnceEach files (ofDirectory files base includes ignores).listed ↔
      ∀ path ∈ (ofDirectory files base includes ignores).listed,
        ∀ other ∈ (ofDirectory files base includes ignores).listed,
          files.resolve path = files.resolve other → path = other :=
  List.nodup_map_iff_inj_on nodup_listed

/-- A listed path is met from one of the starts and leads to a file. -/
theorem exists_meets_of_mem_listed (tree : files.IsTree) {path : Path}
    (h : path ∈ (ofDirectory files base includes ignores).listed) :
    ∃ start ∈ (starts files base includes).1, ∃ place content,
      files.Meets start path place (.file content) := by
  obtain ⟨kind, hpath⟩ := mem_listed.mp h
  obtain ⟨⟨content, start, hstart, hwalk⟩, -⟩ := mem_filesOf.mp hpath
  obtain ⟨place, hmeets⟩ := (Workspace.mem_walk_iff_meets tree).mp hwalk
  exact ⟨start, hstart, place, content, hmeets⟩

/-- A path has some texts in front and names after them. -/
def Follows (front : List (List Char)) (path : Path) : Prop :=
  ∃ names : Place, (∀ name ∈ names, IsName name) ∧ path.texts = front ++ names.map String.toList

theorem follows_of_meets (tree : files.IsTree) {start path : Path} {place : Place} {entry : Entry}
    (h : files.Meets start path place entry) : Follows start.texts path := by
  have hfound := h.found
  obtain ⟨top, names, -, rfl, rfl⟩ := h.exists_names
  have hnames := tree.isName_of_append hfound
  exact ⟨names, hnames, texts_foldl_join start hnames⟩

/-- Paths to files are told apart by their texts. -/
theorem eq_of_meets (tree : files.IsTree) {start start' path other : Path} {place place' : Place}
    {content content' : List UInt8} (h : files.Meets start path place (.file content))
    (h' : files.Meets start' other place' (.file content')) (htexts : path.texts = other.texts) :
    path = other :=
  eq_of_texts_eq htexts (Workspace.getLast?_pieces_of_resolve (h.resolve_eq tree) h.found)
    (Workspace.getLast?_pieces_of_resolve (h'.resolve_eq tree) h'.found)

/-! ### Starts that spell alike -/

/-- A start that is at or below another one is spelled as from that one, as far as there is a file
that is listed from both. -/
def Agree (files : Workspace) (listed : List Path) (start inner : Path) : Prop :=
  ∀ place names rest content, files.resolve start = .ok place →
    files.resolve inner = .ok (place ++ names) →
    files.entry? (place ++ names ++ rest) = some (.file content) →
    (names ++ rest).foldl join start ∈ listed → rest.foldl join inner ∈ listed →
    inner.texts = start.texts ++ names.map String.toList

theorem onceEach_iff_agree (tree : files.IsTree) :
    OnceEach files (ofDirectory files base includes ignores).listed ↔
      ∀ start ∈ (starts files base includes).1, ∀ inner ∈ (starts files base includes).1,
        Agree files (ofDirectory files base includes ignores).listed start inner := by
  rw [onceEach_listed_iff]
  constructor
  · intro honce start _ inner _ place names rest content hplace hinner hfile hlisted hlisted'
    have hmeets := Workspace.Meets.of_names tree hinner hfile
    rw [List.append_assoc] at hfile
    have hmeets' := Workspace.Meets.of_names tree hplace hfile
    have hsame := (hmeets'.resolve_eq tree).trans
      ((hmeets.resolve_eq tree).trans (congrArg _ (List.append_assoc _ _ _))).symm
    have htexts := congrArg texts (honce _ hlisted _ hlisted' hsame)
    have hnames := tree.isName_of_append hfile
    rw [texts_foldl_join _ hnames, texts_foldl_join _ (List.forall_mem_append.mp hnames).2,
      List.map_append, ← List.append_assoc] at htexts
    exact (List.append_cancel_right htexts).symm
  · intro hagree path hpath other hother hsame
    obtain ⟨start, hstart, place, content, hmeets⟩ := exists_meets_of_mem_listed tree hpath
    obtain ⟨start', hstart', place', content', hmeets'⟩ := exists_meets_of_mem_listed tree hother
    rw [hmeets.resolve_eq tree, hmeets'.resolve_eq tree, Except.ok.injEq] at hsame
    subst hsame
    refine eq_of_meets tree hmeets hmeets' ?_
    have hfound := hmeets.found
    obtain ⟨top, names, htop, rfl, rfl⟩ := hmeets.exists_names
    obtain ⟨top', names', htop', hplaces, rfl⟩ := hmeets'.exists_names
    have hnames := tree.isName_of_append hfound
    have hnames' := tree.isName_of_append (hplaces ▸ hfound)
    rw [texts_foldl_join start hnames, texts_foldl_join start' hnames']
    -- One of the starts is below the other.
    rcases List.append_eq_append_iff.mp hplaces with ⟨middle, rfl, rfl⟩ | ⟨middle, rfl, rfl⟩
    · rw [← List.append_assoc] at hfound
      rw [hagree start hstart start' hstart' top middle names' content htop htop' hfound hpath
        hother, List.map_append, List.append_assoc]
    · rw [hagree start' hstart' start hstart top' middle names content htop' htop hfound hother
        hpath, List.map_append, List.append_assoc]

/-! ### Plain entries -/

/-- Included entries whose texts are names or stand for names. Patterns are taken from a base
directory without wildcards. -/
structure PlainEntries (base : Path) (includes : List String) : Prop where
  path : ∀ entry ∈ includes, isPattern entry = false →
    ∀ text ∈ texts entry, IsName (String.ofList text)
  pattern : ∀ entry ∈ includes, isPattern entry = true → IsPlain entry ∧ IsLiteral base.toList

instance (base : Path) (includes : List String) : Decidable (PlainEntries base includes) :=
  decidable_of_iff ((∀ entry ∈ includes, isPattern entry = false →
      ∀ text ∈ texts entry, IsName (String.ofList text)) ∧
      ∀ entry ∈ includes, isPattern entry = true → IsPlain entry ∧ IsLiteral base.toList)
    ⟨fun ⟨path, pattern⟩ => ⟨path, pattern⟩, fun h => ⟨h.path, h.pattern⟩⟩

/-- A file is found from an included entry. -/
def FoundFrom (files : Workspace) (base : Path) (entry : String) (path : Path) : Prop :=
  ∃ start ∈ (startsOf files base entry).1, ∃ content,
    (path, .file content) ∈ (files.walk start).toOption.getD []

/-- No listed file is found from a path and from a pattern. -/
def FoundApart (files : Workspace) (base : Path) (includes : List String) (listed : List Path) :
    Prop :=
  ∀ entry ∈ includes, ∀ pattern ∈ includes, isPattern entry = false → isPattern pattern = true →
    ∀ path ∈ listed, ∀ other ∈ listed, FoundFrom files base entry path →
      FoundFrom files base pattern other → files.resolve path ≠ files.resolve other

theorem Follows.of_meets (tree : files.IsTree) {front : List (List Char)} {start path : Path}
    {place : Place} {entry : Entry} (h : Follows front start)
    (hmeets : files.Meets start path place entry) : Follows front path := by
  obtain ⟨names, hnames, htexts⟩ := h
  obtain ⟨names', hnames', htexts'⟩ := follows_of_meets tree hmeets
  refine ⟨names ++ names', List.forall_mem_append.mpr ⟨hnames, hnames'⟩, ?_⟩
  rw [htexts', htexts, List.map_append, List.append_assoc]

/-- Listed paths to the same file are equal if and only if they have the same texts in front, as far
as these lead to the same place. -/
theorem Follows.eq_iff (tree : files.IsTree) {front front' : List (List Char)}
    (hlead : files.lead front = files.lead front') {path other : Path}
    (hpath : path ∈ (ofDirectory files base includes ignores).listed)
    (hother : other ∈ (ofDirectory files base includes ignores).listed)
    (hresolve : files.resolve path = files.resolve other) (h : Follows front path)
    (h' : Follows front' other) : path = other ↔ front = front' := by
  obtain ⟨start, -, place, content, hmeets⟩ := exists_meets_of_mem_listed tree hpath
  obtain ⟨start', -, place', content', hmeets'⟩ := exists_meets_of_mem_listed tree hother
  obtain ⟨names, hnames, htexts⟩ := h
  obtain ⟨names', hnames', htexts'⟩ := h'
  -- Both paths lead to the same place from there on, so the names are the same.
  have hplace := Workspace.eq_lead_of_resolve (hmeets.resolve_eq tree)
  have hplace' := Workspace.eq_lead_of_resolve (hmeets'.resolve_eq tree)
  rw [hmeets.resolve_eq tree, hmeets'.resolve_eq tree, Except.ok.injEq, hplace, hplace', htexts,
    htexts', Workspace.lead_append_names files front hnames,
    Workspace.lead_append_names files front' hnames', hlead] at hresolve
  obtain rfl := List.append_cancel_left hresolve
  constructor
  · rintro rfl
    rw [htexts] at htexts'
    exact List.append_cancel_right htexts'
  · rintro rfl
    exact eq_of_meets tree hmeets hmeets' (htexts.trans htexts'.symm)

/-- A file that is found from a path and from a pattern is found under one path. -/
theorem eq_of_found (tree : files.IsTree)
    (h : expandedTexts base = base.texts ∨
      FoundApart files base includes (ofDirectory files base includes ignores).listed)
    {path other : Path} (hpath : path ∈ (ofDirectory files base includes ignores).listed)
    (hother : other ∈ (ofDirectory files base includes ignores).listed)
    (hresolve : files.resolve path = files.resolve other) (hfollows : Follows base.texts path)
    (hfound : includes ≠ [] →
      ∃ entry ∈ includes, isPattern entry = false ∧ FoundFrom files base entry path)
    (hfollows' : Follows (expandedTexts base) other)
    (hfound' : ∃ entry ∈ includes, isPattern entry = true ∧ FoundFrom files base entry other) :
    path = other := by
  rcases h with hbase | hapart
  · rw [hbase] at hfollows'
    exact (hfollows.eq_iff tree rfl hpath hother hresolve hfollows').mpr rfl
  · obtain ⟨pattern, hpattern, hkind', hfound'⟩ := hfound'
    obtain ⟨entry, hentry, hkind, hfound⟩ := hfound (List.ne_nil_of_mem hpattern)
    exact absurd hresolve (hapart entry hentry pattern hpattern hkind hkind' path hpath other
      hother hfound hfound')

namespace PlainEntries

variable (plain : PlainEntries base includes)
include plain

/-- What is found from a path begins with the base directory as it is written. -/
theorem follows_of_path (tree : files.IsTree) {entry : String} (hentry : entry ∈ includes)
    (hkind : isPattern entry = false) {path : Path} (h : FoundFrom files base entry path) :
    Follows base.texts path := by
  obtain ⟨start, hstart, content, hwalk⟩ := h
  obtain ⟨place, hmeets⟩ := (Workspace.mem_walk_iff_meets tree).mp hwalk
  have htexts := plain.path entry hentry hkind
  have hrelative : isAbsolute entry = false := isAbsolute_of_nil_notMem fun hnil =>
    (htexts [] hnil).ne_empty rfl
  refine Follows.of_meets tree ⟨(texts entry).map String.ofList, ?_, ?_⟩ hmeets
  · intro name hname
    obtain ⟨text, htext, rfl⟩ := List.mem_map.mp hname
    exact htexts text htext
  · rw [((mem_startsOf_of_path hkind).mp hstart).2, texts_join base hrelative,
      map_toList_map_ofList]

/-- What is found from a pattern begins with what is left of the base directory. -/
theorem follows_of_pattern (tree : files.IsTree) {entry : String} (hentry : entry ∈ includes)
    (hkind : isPattern entry = true) {path : Path} (h : FoundFrom files base entry path) :
    Follows (expandedTexts base) path := by
  obtain ⟨start, hstart, content, hwalk⟩ := h
  obtain ⟨place, hmeets⟩ := (Workspace.mem_walk_iff_meets tree).mp hwalk
  obtain ⟨hplain, hbase⟩ := plain.pattern entry hentry hkind
  simp only [startsOf, hkind, if_true] at hstart
  split at hstart
  · rename_i paths hpaths
    exact Follows.of_meets tree
      (texts_of_mem_expand tree.named hbase hplain hkind hpaths (List.mem_filter.mp hstart).1)
      hmeets
  · cases hstart

/-- A listed file is found from a path, if only from the base directory, or from a pattern. -/
theorem cases_of_mem_listed (tree : files.IsTree) {path : Path}
    (h : path ∈ (ofDirectory files base includes ignores).listed) :
    (Follows base.texts path ∧ (includes ≠ [] →
        ∃ entry ∈ includes, isPattern entry = false ∧ FoundFrom files base entry path)) ∨
      Follows (expandedTexts base) path ∧
        ∃ entry ∈ includes, isPattern entry = true ∧ FoundFrom files base entry path := by
  obtain ⟨start, hstart, place, content, hmeets⟩ := exists_meets_of_mem_listed tree h
  rcases mem_starts.mp hstart with ⟨hnone, rfl⟩ | ⟨entry, hentry, hstart⟩
  · exact .inl ⟨follows_of_meets tree hmeets, fun hne => absurd hnone hne⟩
  · have hfound : FoundFrom files base entry path :=
      ⟨start, hstart, content, (Workspace.mem_walk_iff_meets tree).mpr ⟨place, hmeets⟩⟩
    cases hkind : isPattern entry with
    | false =>
        exact .inl ⟨plain.follows_of_path tree hentry hkind hfound,
          fun _ => ⟨entry, hentry, hkind, hfound⟩⟩
    | true =>
        exact .inr ⟨plain.follows_of_pattern tree hentry hkind hfound, entry, hentry, hkind, hfound⟩

/-- With plain entries the base directory makes the difference, or files that are found from a path
and from a pattern. -/
theorem onceEach_iff (tree : files.IsTree) :
    OnceEach files (ofDirectory files base includes ignores).listed ↔
      expandedTexts base = base.texts ∨
        FoundApart files base includes (ofDirectory files base includes ignores).listed := by
  rw [onceEach_listed_iff]
  constructor
  · intro honce
    rw [or_iff_not_imp_left]
    intro hbase entry hentry pattern hpattern hkind hkind' path hpath other hother hfound hfound'
      hresolve
    have hfollows := plain.follows_of_path tree hentry hkind hfound
    have hfollows' := plain.follows_of_pattern tree hpattern hkind' hfound'
    have hlead := (lead_expandedTexts files base).symm
    exact hbase ((hfollows.eq_iff tree hlead hpath hother hresolve hfollows').mp
      (honce path hpath other hother hresolve)).symm
  · intro h path hpath other hother hresolve
    rcases plain.cases_of_mem_listed tree hpath with ⟨hfollows, hfound⟩ | ⟨hfollows, hfound⟩
    · rcases plain.cases_of_mem_listed tree hother with ⟨hfollows', -⟩ | ⟨hfollows', hfound'⟩
      · exact (hfollows.eq_iff tree rfl hpath hother hresolve hfollows').mpr rfl
      · exact eq_of_found tree h hpath hother hresolve hfollows hfound hfollows' hfound'
    · rcases plain.cases_of_mem_listed tree hother with ⟨hfollows', hfound'⟩ | ⟨hfollows', -⟩
      · exact (eq_of_found tree h hother hpath hresolve.symm hfollows' hfound' hfollows hfound).symm
      · exact (hfollows.eq_iff tree rfl hpath hother hresolve hfollows').mpr rfl

end PlainEntries

/-! ### Declarations -/

/-- Where a place is on disk. -/
def spot (files : Workspace) (location : Location) : Except IoError Place × Nat × Nat :=
  (files.resolve location.file, location.line, location.col)

/-- No declaration is collected twice: the places of some types are in different files or at
different positions. -/
def CollectedOnce (files : Workspace) (types : List NamedType) : Prop :=
  (types.flatMap fun type => type.locations.map (spot files)).Nodup

/-- Merging declarations into types neither adds places nor loses any. -/
theorem collectedOnce_iff {paths : List Path} {symbols : Symbols} :
    CollectedOnce files (Sources.ofPaths files symbols paths).types ↔
      ((Sources.ofPaths files symbols paths).files.flatMap fun file =>
        file.declarations.map fun declaration => spot files declaration.location).Nodup := by
  have hdotless := Sources.dotless_ofPaths files symbols paths
  have hperm := (merges_ofFiles hdotless).partition.map fun found => spot files found.2
  have hdeclarations := congrArg (List.map fun declaration => spot files declaration.location)
    (map_snd_declared (Sources.ofPaths files symbols paths).files)
  rw [List.map_map, List.map_flatMap] at hdeclarations
  rw [List.map_flatMap, List.map_map] at hperm
  simp only [List.map_map, Function.comp_def] at hperm hdeclarations
  rw [hdeclarations] at hperm
  exact hperm.nodup_iff

theorem collectedOnce_ofPaths {paths : List Path} (h : OnceEach files paths) (symbols : Symbols) :
    CollectedOnce files (Sources.ofPaths files symbols paths).types := by
  rw [collectedOnce_iff, List.nodup_flatMap]
  constructor
  · intro file hfile
    obtain ⟨path, -, text, -, rfl⟩ := Sources.mem_ofPaths.mp hfile
    have hpositions := (SourceFile.wellFormed_parse path text symbols).nodup_positions
    rw [List.Nodup, List.pairwise_map] at hpositions ⊢
    exact hpositions.imp fun hne heq => hne (Prod.mk.inj heq).2
  · rw [OnceEach, List.Nodup, List.pairwise_map] at h
    rw [Sources.ofPaths, List.filterMap_map, List.pairwise_filterMap]
    refine h.imp fun {path other} hne file hfile file' hfile' => ?_
    obtain ⟨text, -, rfl⟩ := Option.map_eq_some_iff.mp hfile
    obtain ⟨text', -, rfl⟩ := Option.map_eq_some_iff.mp hfile'
    rw [Function.onFun, List.disjoint_left]
    intro place hplace hplace'
    obtain ⟨declaration, hdeclaration, rfl⟩ := List.mem_map.mp hplace
    obtain ⟨declaration', hdeclaration', heq⟩ := List.mem_map.mp hplace'
    have hresolve := (Prod.mk.inj heq).1
    rw [SourceFile.file_location hdeclaration, SourceFile.file_location hdeclaration'] at hresolve
    exact hne hresolve.symm

/-- Whether overlapping entries make a scan list a file twice. Every file is listed once if and only
if the starts agree on how the files are spelled that are listed from several of them. With plain
entries this is so if and only if a pattern leaves nothing out of the base directory or no listed
file is found both from a path and from a pattern. If every file is listed once, no declaration is
collected twice. -/
theorem listed_once_iff (tree : files.IsTree) (base : Path) (includes ignores : List String) :
    let scan := ofDirectory files base includes ignores
    (OnceEach files scan.listed ↔
      ∀ start ∈ (starts files base includes).1, ∀ inner ∈ (starts files base includes).1,
        Agree files scan.listed start inner) ∧
    (PlainEntries base includes → (OnceEach files scan.listed ↔
      expandedTexts base = base.texts ∨ FoundApart files base includes scan.listed)) ∧
    (OnceEach files scan.listed → ∀ symbols,
      CollectedOnce files (Sources.ofPaths files symbols scan.sourceFiles).types) := by
  refine ⟨onceEach_iff_agree tree, fun plain => plain.onceEach_iff tree, fun h symbols => ?_⟩
  have hsublist : ((ofDirectory files base includes ignores).sourceFiles.map files.resolve).Sublist
      ((ofDirectory files base includes ignores).listed.map files.resolve) :=
    (List.sublist_append_left _ _).map _
  exact collectedOnce_ofPaths (h.sublist hsublist) symbols

/-- A form in a directory below the sources. -/
def appTree : Workspace :=
  ⟨[(["src"], .directory), (["src", "App"], .directory),
    (["src", "App", "Form.cs"], .file "class Form { }".toUTF8.data.toList)], []⟩

/-- From a directory by its name, a path and a pattern find the form under the same path. -/
theorem listed_once_iff_appTree :
    let scan := ofDirectory appTree "src" ["App", "*", "App/"] []
    OnceEach appTree scan.listed ∧
      CollectedOnce appTree (Sources.ofPaths appTree [] scan.sourceFiles).types := by
  intro scan
  have htree : appTree.IsTree := by decide +kernel
  obtain ⟨-, hplain, hcollected⟩ := listed_once_iff htree "src" ["App", "*", "App/"] []
  have honce : OnceEach appTree scan.listed :=
    (hplain (by decide +kernel)).mpr (.inl (by decide +kernel))
  exact ⟨honce, hcollected honce []⟩

/-- From the current directory, a path and a pattern find the form under two paths, and so do two
paths of which one has a `.` in front. The declaration of the form is collected twice. -/
theorem form_listed_twice :
    (ofDirectory appTree "./" ["src", "src/*"] []).sourceFiles =
        ["./src/App/Form.cs", "src/App/Form.cs"] ∧
      (ofDirectory appTree "./" ["./src", "src"] []).sourceFiles =
        ["././src/App/Form.cs", "./src/App/Form.cs"] ∧
      appTree.resolve "./src/App/Form.cs" = appTree.resolve "src/App/Form.cs" ∧
      ¬OnceEach appTree (ofDirectory appTree "./" ["src", "src/*"] []).listed ∧
      ¬CollectedOnce appTree (Sources.ofPaths appTree []
        (ofDirectory appTree "./" ["src", "src/*"] []).sourceFiles).types := by
  have hfiles : (ofDirectory appTree "./" ["src", "src/*"] []).sourceFiles =
      sortedSet ["./src/App/Form.cs", "src/App/Form.cs"] := congrArg sortedSet (by decide +kernel)
  have hfiles' : (ofDirectory appTree "./" ["./src", "src"] []).sourceFiles =
      sortedSet ["././src/App/Form.cs", "./src/App/Form.cs"] :=
    congrArg sortedSet (by decide +kernel)
  rw [sortedSet_of_pairwise (by decide +kernel)] at hfiles hfiles'
  have hsame : appTree.resolve "./src/App/Form.cs" = appTree.resolve "src/App/Form.cs" := by
    decide +kernel
  refine ⟨hfiles, hfiles', hsame, fun honce => ?_, ?_⟩
  · rw [OnceEach, listed, hfiles] at honce
    simp [hsame] at honce
  · rw [hfiles, collectedOnce_iff]
    decide +kernel

end Scan

end ResourceLanguage
