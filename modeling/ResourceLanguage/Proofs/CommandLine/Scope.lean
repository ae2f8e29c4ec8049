import ResourceLanguage.Proofs.CommandLine.DryRun
import ResourceLanguage.Proofs.Fix.Declared
import ResourceLanguage.Proofs.Scan

/-!
The files that an applied fix changes. A fix looks for resource files by name in the directory of a
source file and not among the files of the scan, so it can change a file that the scan was told to
pass over. All other files that it changes are resource files of the project.
-/

namespace ResourceLanguage

open ResourceLanguage.CSharp ResourceLanguage.Text

namespace Workspace

/-- Names joined to a path lead from the place of the path down along the names. -/
theorem exists_of_resolve_foldl_join {files : Workspace} {path : Path} (hpath : path.toList ≠ [])
    {names : Place} (hnames : ∀ name ∈ names, Path.IsName name) {stop : Place}
    (hstop : files.resolve (names.foldl Path.join path) = .ok stop) :
    ∃ place, files.resolve path = .ok place ∧ stop = place ++ names := by
  induction names generalizing path with
  | nil => exact ⟨stop, hstop, (List.append_nil stop).symm⟩
  | cons name names ih =>
      obtain ⟨hname, hnames⟩ := List.forall_mem_cons.mp hnames
      obtain ⟨inner, hinner, rfl⟩ :=
        ih (Path.toList_join_ne_nil hpath hname.slash) hnames hstop
      obtain ⟨place, hplace, -, -, rfl⟩ := (resolve_join_iff hpath hname).mp hinner
      exact ⟨place, hplace, by rw [List.append_assoc, List.singleton_append]⟩

theorem WellNamed.isName_of_listsFile {files : Workspace} (named : files.WellNamed)
    {directory : Place} {name : String} (h : files.listsFile directory name = true) :
    Path.IsName name := by
  obtain ⟨found, hfound, hplace⟩ := List.any_eq_true.mp h
  rw [Bool.and_eq_true, decide_eq_true_eq] at hplace
  exact named found hfound name (hplace.1 ▸ List.mem_append_right _ (List.mem_singleton_self name))

theorem toList_foldl_join_ne_nil {path : Path} (hpath : path.toList ≠ []) {names : Place}
    (hnames : ∀ name ∈ names, Path.IsName name) : (names.foldl Path.join path).toList ≠ [] := by
  induction names generalizing path with
  | nil => exact hpath
  | cons name names ih =>
      obtain ⟨hname, hnames⟩ := List.forall_mem_cons.mp hnames
      exact ih (Path.toList_join_ne_nil hpath hname.slash) hnames

end Workspace

theorem Sources.exists_resolve_of_readSource {files : Workspace} {path : Path} {text : String}
    (h : readSource files path = .ok text) : ∃ place, files.resolve path = .ok place := by
  cases hplace : files.resolve path with
  | ok place => exact ⟨place, rfl⟩
  | error error =>
      have hread : files.read path = .error error := by rw [Workspace.read_eq, hplace]
      rw [readSource, hread] at h
      cases h

/-! ### Files beside a source file -/

namespace Scan

variable {files : Workspace} {base : Path} {includes : List String}

/-- A scan that comes across a file below one of its starts comes across the other files in the
same directory. -/
theorem reaches_beside (named : files.WellNamed) {path : Path} {entry : Entry}
    (hreaches : Reaches files base includes (path, entry))
    (hstart : path ∉ (starts files base includes).1) {place : Place}
    (hplace : files.resolve path = .ok place) {directory : Place}
    (hdirectory : files.resolve (directoryOf path) = .ok directory) {name : String}
    (hname : Path.IsName name) (hlists : files.listsFile directory name = true) :
    ∃ reached found, Reaches files base includes (reached, found) ∧ found.isFile = true ∧
      reached.fileName? = some name ∧ files.resolve reached = .ok (directory ++ [name]) := by
  obtain ⟨start, hmem, hwalk⟩ := hreaches
  obtain ⟨top, htop, hfound⟩ := Workspace.mem_walk.mp hwalk
  rcases hfound with ⟨-, rfl⟩ | ⟨names, hne, hentry, hpath⟩
  · exact absurd hmem hstart
  have hnames : ∀ name ∈ names, Path.IsName name := fun name hname =>
    named _ hentry name (List.mem_append_right top hname)
  obtain ⟨front, last, rfl⟩ := (List.eq_nil_or_concat names).resolve_left hne
  rw [List.concat_eq_append] at hnames hpath
  rw [List.foldl_append] at hpath
  change path = (front.foldl Path.join start).join last at hpath
  obtain ⟨hfront, hlast⟩ := List.forall_mem_append.mp hnames
  replace hlast : Path.IsName last := hlast last (List.mem_singleton_self last)
  have hne := (Workspace.resolve_eq_ok_iff.mp htop).1
  have houterNe := Workspace.toList_foldl_join_ne_nil hne hfront
  -- The path goes through the directory of the file, which is `front` below the start.
  obtain ⟨found, hfound, hhas, rfl⟩ := Workspace.resolve_directoryOf hplace
    (hpath ▸ Path.fileName?_join _ hlast)
  obtain rfl : found = directory := Except.ok.inj (hfound.symm.trans hdirectory)
  rw [hpath, Workspace.resolve_join_iff houterNe hlast] at hplace
  obtain ⟨outer, houter, -, -, heq⟩ := hplace
  obtain rfl : found = outer := (List.append_inj' heq rfl).1
  obtain ⟨place, hplace, rfl⟩ := Workspace.exists_of_resolve_foldl_join hne hfront houter
  obtain rfl : top = place := Except.ok.inj (htop.symm.trans hplace)
  obtain ⟨⟨listed, file⟩, hmemFile, hfile⟩ := List.any_eq_true.mp hlists
  rw [Bool.and_eq_true, decide_eq_true_eq] at hfile
  obtain ⟨rfl, hisFile⟩ := hfile
  refine ⟨(front.foldl Path.join start).join name, file, ⟨start, hmem, ?_⟩, hisFile,
    Path.fileName?_join _ hname, ?_⟩
  · rw [Workspace.mem_walk]
    exact ⟨top, htop, .inr ⟨front ++ [name], by simp, by rwa [← List.append_assoc],
      by rw [List.foldl_append]; rfl⟩⟩
  · exact Workspace.resolve_join_of_listsFile houter hhas hname hlists

end Scan

namespace Session

section Grammar

variable [Grammar]

/-- A resource file in the directory of a source file. It has the name of the type around a place
in the source, and its text has the marker. -/
structure Companion (session : Session) (location : Location) (declaration : Declaration)
    (path : Path) : Prop where
  encloses : session.Encloses location declaration
  beside : session.files.resolve path = session.files.resolve
    ((directoryOf location.file).join (declaration.identifier ++ "." ++ resourceExtension))
  marked : ∃ text, session.files.readText path = .ok text ∧ hasMarker text = true

/-- The file at a path is one of the resource files of the project. -/
def Scans (session : Session) (path : Path) : Prop :=
  ∃ scanned ∈ session.project.resourceFiles,
    session.files.resolve scanned = session.files.resolve path

/-- The scan comes across the file at a path, where an ignored entry excludes it. -/
def PassesOver (session : Session) (path : Path) : Prop :=
  ∃ reached entry, Scan.Reaches session.files session.project.root session.project.config.includes
      (reached, entry) ∧
    session.files.resolve reached = session.files.resolve path ∧
    (Exclusion.ofEntries session.project.root session.project.config.ignores).excludes reached =
      true

/-- The scan starts at a file itself, and not at a directory above it. -/
def StartsAt (session : Session) (path : Path) : Prop :=
  path ∈ (Scan.starts session.files session.project.root session.project.config.includes).1

/-- A file beside a source file of the project is scanned like the source file, unless an ignored
entry is about it or an included entry about the source file alone. -/
theorem scans_of_beside {files : Workspace} {config : Config} {sourceRoot : Option Path}
    {verbose : Bool} {session : Session}
    (hsession : session = listed files config sourceRoot verbose) (named : files.WellNamed)
    {location : Location} {declaration : Declaration}
    (hencloses : session.Encloses location declaration) {directory : Place}
    (hdirectory : files.resolve (directoryOf location.file) = .ok directory)
    (hlists : files.listsFile directory
      (declaration.identifier ++ "." ++ resourceExtension) = true) {path : Path}
    (hpath : files.resolve path =
      .ok (directory ++ [declaration.identifier ++ "." ++ resourceExtension])) :
    session.Scans path ∨ session.PassesOver path ∨ session.StartsAt location.file ∨
      declaration.identifier = "" := by
  have hname := named.isName_of_listsFile hlists
  obtain ⟨hsource, text, htext, -⟩ := hencloses
  subst hsession
  obtain ⟨entry, hreaches, -⟩ := Scan.mem_sourceFiles.mp hsource
  obtain ⟨place, hplace⟩ := Sources.exists_resolve_of_readSource htext
  by_cases hstart : (listed files config sourceRoot verbose).StartsAt location.file
  · exact .inr (.inr (.inl hstart))
  · obtain ⟨reached, found, hreached, hfile, hfileName, hresolve⟩ :=
      Scan.reaches_beside named hreaches hstart hplace hdirectory hname hlists
    have hsame : files.resolve reached = files.resolve path := hresolve.trans hpath.symm
    by_cases hempty : declaration.identifier = ""
    · exact .inr (.inr (.inr hempty))
    · cases hexcluded : (Exclusion.ofEntries (sourceRoot.getD config.sourceRoot)
          config.ignores).excludes reached with
      | true => exact .inr (.inl ⟨reached, found, hreached, hsame, hexcluded⟩)
      | false =>
          have hextension : reached.extension? = some resourceExtension := by
            rw [Path.extension?, hfileName, Option.bind_some, Path.splitExtension_append
              (fun hnil => hempty (String.toList_eq_nil_iff.mp hnil)) (by decide)]
          refine .inl ⟨reached, Scan.mem_resourceFiles.mpr ⟨found, hreached, ?_⟩, hsame⟩
          simp [Scan.selects, hexcluded, hfile, hextension]

end Grammar

end Session

namespace CommandLine

/-- A fix that fails early leaves the files as they are. -/
theorem files_runFix_of_error [Grammar] {files : Workspace} {options : Options}
    {error : CommandError} (h : fixWork files options = .error error) (palette : Palette)
    (apply : Bool) :
    (runFix files palette { options with apply }).files = files := by
  delta fixWork at h
  delta runFix withSession
  cases hstart : Session.start files options.sourceRoot options.verbose with
  | mk started notices =>
      simp only [hstart] at h ⊢
      cases started with
      | error failure => rfl
      | ok first =>
          obtain ⟨hfirst, huncancelled, -⟩ := Session.of_start (congrArg Prod.fst hstart)
          obtain ⟨hfound, hfiles, _⟩ :=
            @Session.issues_spec _ { first with notices := notices ++ first.notices } huncancelled
          rcases hissues : { first with notices := notices ++ first.notices }.issues with
            ⟨cause | found, session⟩
          · rw [hissues] at hfound
            cases hfound
          · rw [hissues] at hfiles
            simp only [hissues] at h ⊢
            cases hdocument : options.document with
            | none =>
                simp only [hdocument] at h
                cases h
            | some document =>
                cases hfilter : inDocument session.files document found with
                | error failure =>
                    simp only [hfilter, finish]
                    exact hfiles.trans hfirst
                | ok issues =>
                    simp only [hdocument, hfilter] at h
                    cases h

/-- Every file that an applied fix changes is the resource file of a type around an issue, beside
the source file. It is one of the resource files of the project, unless the scan was told to leave
it out. -/
theorem changed_by_fix [Grammar] (files : Workspace) (palette : Palette) (options : Options)
    (named : files.WellNamed) {path : Path}
    (changed : (runFix files palette { options with apply := true }).files.read path ≠
      files.read path) :
    ∃ session found, (Session.start files options.sourceRoot options.verbose).1 = .ok session ∧
      session.issues.1 = .ok found ∧ ∃ issue ∈ found, ∃ declaration,
        session.Companion issue.location declaration path ∧
        (session.Scans path ∨ session.PassesOver path ∨ session.StartsAt issue.location.file ∨
          declaration.identifier = "") := by
  cases hwork : fixWork files options with
  | error error => exact absurd (by rw [files_runFix_of_error hwork]) changed
  | ok work =>
      obtain ⟨session, issues⟩ := work
      obtain ⟨first, hstart, hfiles, huncancelled, hsources, found, hfound, hsubset⟩ :=
        fixWork_spec hwork
      obtain ⟨loaded, -, -, hlisted⟩ := Session.start_eq_ok_iff.mp hstart
      obtain ⟨hfirst, -, hnone, -⟩ := Session.of_start hstart
      rw [runFix_of_fixWork hwork, (fixIssues_apply huncancelled palette options issues).1, hfiles,
        Session.batch_fst, hsources] at changed
      obtain ⟨place, hplace, hpath, hmarked⟩ := Workspace.read_restoreAll_ne_iff.mp changed
      rw [← hfirst] at hplace
      obtain ⟨issue, hissue, declaration, hencloses, directory, hdirectory, hhas, hlists,
        hcompanion⟩ := Session.exists_of_mem_places hnone hplace
      rw [hfirst] at hdirectory hhas hlists hcompanion
      have hname := named.isName_of_listsFile hlists
      obtain rfl := Except.ok.inj (hcompanion.symm.trans
        (Workspace.resolve_join_of_listsFile hdirectory hhas hname hlists))
      refine ⟨first, found, hstart, hfound, issue, hsubset hissue, declaration, ?_,
        Session.scans_of_beside hlisted named hencloses hdirectory hlists hpath⟩
      obtain ⟨content, hcontent, text, htext, hlines⟩ :=
        (files.unmarked_or_marked _).resolve_left hmarked
      refine ⟨hencloses, ?_, text, ?_, ?_⟩
      · rw [hfirst, hpath, hcompanion]
      · rw [hfirst]
        exact Workspace.readText_eq_ok_iff.mpr ⟨_, content, hpath, hcontent, htext⟩
      · rw [hasMarker_eq_any_textLines, hlines]

/-- Two forms of one name, each with a marked resource file, of which only the second one has a
source file. -/
def twoForms (config : String) : Workspace :=
  let marked := "<root>\n$this.Language\n</metadata>\n</root>\n"
  ⟨[([Config.fileName], .file config.toUTF8.data.toList), (["a"], .directory),
    (["a", "Form.resx"], .file marked.toUTF8.data.toList), (["b"], .directory),
    (["b", "Form.cs"], .file "class Form { }".toUTF8.data.toList),
    (["b", "Form.resx"], .file marked.toUTF8.data.toList)], []⟩

/-- The second resource file is to be ignored. -/
def ignoredForm : Workspace := twoForms "\x7b\"ignores\":[\"b/Form.resx\"]\x7d"

/-- Of the second form only the source file is included. -/
def includedForm : Workspace := twoForms "\x7b\"includes\":[\"a\",\"b/Form.cs\"]\x7d"

theorem read_ne_ignoredForm :
    (runFix ignoredForm ⟨false⟩ { apply := true }).files.read "b/Form.resx" ≠
      ignoredForm.read "b/Form.resx" := by
  decide +kernel

theorem changed_by_fix_ignoredForm :
    ignoredForm.WellNamed ∧
      (runFix ignoredForm ⟨false⟩ { apply := true }).files.read "b/Form.resx" ≠
        ignoredForm.read "b/Form.resx" ∧
      ∃ session found, (Session.start ignoredForm none false).1 = .ok session ∧
        session.issues.1 = .ok found ∧ ∃ issue ∈ found, ∃ declaration,
          session.Companion issue.location declaration "b/Form.resx" ∧
          (session.Scans "b/Form.resx" ∨ session.PassesOver "b/Form.resx" ∨
            session.StartsAt issue.location.file ∨ declaration.identifier = "") := by
  have hnamed : ignoredForm.WellNamed := by decide +kernel
  exact ⟨hnamed, read_ne_ignoredForm,
    changed_by_fix ignoredForm ⟨false⟩ {} hnamed read_ne_ignoredForm⟩

/-- A fix changes the file at a path that no resource file of the project is at. -/
def Escapes (files : Workspace) (path : Path) : Prop :=
  ∃ session, (Session.start files none false).1 = .ok session ∧ ¬session.Scans path ∧
    (runFix files ⟨false⟩ { apply := true }).files.read path ≠ files.read path

theorem escapes_of_listed {files : Workspace} (scanned : Path) {path : Path}
    (hlisted : (Session.start files none false).1.toOption.map (·.project.resourceFiles) =
      some [scanned]) (hne : files.resolve scanned ≠ files.resolve path)
    (hchanged : (runFix files ⟨false⟩ { apply := true }).files.read path ≠ files.read path) :
    Escapes files path := by
  cases hstart : (Session.start files none false).1 with
  | error failure =>
      rw [hstart] at hlisted
      cases hlisted
  | ok session =>
      rw [hstart] at hlisted
      obtain ⟨hfiles, -⟩ := Session.of_start hstart
      refine ⟨session, hstart, ?_, hchanged⟩
      rintro ⟨other, hother, hsame⟩
      rw [show session.project.resourceFiles = [scanned] from Option.some.inj hlisted,
        List.mem_singleton] at hother
      rw [hother, hfiles] at hsame
      exact hne hsame

/-- A file is changed although it is ignored, and although it is not included. -/
theorem fix_beyond_scan :
    Escapes ignoredForm "b/Form.resx" ∧ Escapes includedForm "b/Form.resx" := by
  constructor
  · exact escapes_of_listed "./a/Form.resx" (by decide +kernel) (by decide +kernel)
      read_ne_ignoredForm
  · exact escapes_of_listed "./a/Form.resx" (by decide +kernel) (by decide +kernel)
      (by decide +kernel)

end CommandLine

end ResourceLanguage
