import ResourceLanguage.Proofs.Analysis.Issues
import ResourceLanguage.Proofs.CSharp.Nesting
import ResourceLanguage.Proofs.Fix.Commit
import ResourceLanguage.Proofs.Path

/-!
The fixes for the issues of a project. An issue lies at the name of a declaration; its fix is that
of the innermost type around the name, and restores the file with the type's name in the directory
of the source file.
-/

namespace ResourceLanguage

open ResourceLanguage.CSharp ResourceLanguage.Text

/-! ### Parsed files -/

namespace Sources

variable [Grammar] {files : Workspace} {symbols : Symbols} {paths : List Path}

theorem mem_ofPaths {file : SourceFile} :
    file ∈ (ofPaths files symbols paths).files ↔
      ∃ path ∈ paths, ∃ text, readSource files path = .ok text ∧
        file = SourceFile.parse path text symbols := by
  rw [ofPaths]
  dsimp only
  rw [List.filterMap_map, List.mem_filterMap]
  refine exists_congr fun path => and_congr_right fun _ => ?_
  rw [Function.comp_apply]
  cases readSource files path with
  | error found => simp [Except.toOption]
  | ok text => simp [Except.toOption, eq_comm]

/-- A path stands for one parsed file, even if it is listed twice. -/
theorem find?_ofPaths {path : Path} (hpath : path ∈ paths) {text : String}
    (htext : readSource files path = .ok text) :
    (ofPaths files symbols paths).files.find? (·.path == path) =
      some (SourceFile.parse path text symbols) := by
  have hmem : SourceFile.parse path text symbols ∈ (ofPaths files symbols paths).files :=
    mem_ofPaths.mpr ⟨path, hpath, text, htext, rfl⟩
  cases hfind : (ofPaths files symbols paths).files.find? (·.path == path) with
  | none => exact absurd (beq_self_eq_true path) (List.find?_eq_none.mp hfind _ hmem)
  | some file =>
      obtain ⟨other, _, text', htext', rfl⟩ := mem_ofPaths.mp (List.mem_of_find?_eq_some hfind)
      have hkey := List.find?_some hfind
      obtain rfl : other = path := beq_iff_eq.mp hkey
      rw [htext, Except.ok.injEq] at htext'
      rw [htext']

end Sources

/-- The names that the built-in grammar finds have no dots in them. -/
theorem Sources.dotless_ofPaths (files : Workspace) (symbols : Symbols) (paths : List Path) :
    ∀ file ∈ (ofPaths files symbols paths).files, ∀ declaration ∈ file.declarations,
      '.' ∉ declaration.identifier.toList := by
  intro file hfile declaration hdeclaration
  obtain ⟨path, -, text, -, rfl⟩ := mem_ofPaths.mp hfile
  exact SourceFile.notMem_identifier hdeclaration (by decide) (by decide)

theorem mem_readResources {files : Workspace} {paths : List Path} {resource : Resource} :
    resource ∈ readResources files paths ↔
      ∃ path ∈ paths, ∃ content, files.read path = .ok content ∧
        resource = ⟨path, decodeLossy content⟩ := by
  rw [readResources, List.mem_filterMap]
  refine exists_congr fun path => and_congr_right fun _ => ?_
  cases files.read path with
  | error error => simp [Except.toOption]
  | ok content => simp [Except.toOption, eq_comm]

/-! ### Issues and their fixes -/

/-- The name of a resource file is a name. -/
theorem isName_resource {typeName : String} (h : '/' ∉ typeName.toList) :
    Path.IsName (typeName ++ "." ++ resourceExtension) := by
  have hlist : (typeName ++ "." ++ resourceExtension).toList =
      typeName.toList ++ ['.', 'r', 'e', 's', 'x'] := by
    simp [resourceExtension]
  have hlength : 5 ≤ (typeName ++ "." ++ resourceExtension).toList.length := by
    rw [hlist, List.length_append]
    exact Nat.le_add_left 5 _
  refine ⟨?_, fun hparent => ?_, ?_⟩
  · rintro (hidle | hidle)
    · rw [hidle] at hlength
      exact absurd hlength (by decide)
    · rw [hidle] at hlength
      exact absurd hlength (by decide)
  · rw [hparent] at hlength
    exact absurd hlength (by decide)
  · rw [hlist]
    simpa using h

namespace RestoreFix

variable {files : Workspace}

section Issue

variable [Grammar] {symbols : Symbols} {paths : List Path}

/-- The issue that reports a declaration is fixed beside it, if the declaration is found at its own
place. -/
theorem ofIssue_issue {path : Path} (hpath : path ∈ paths) {text : String}
    (htext : Sources.readSource files path = .ok text)
    {declaration : Declaration}
    (henclosing : (SourceFile.parse path text symbols).enclosing? declaration.location.line
      declaration.location.col = some declaration) :
    ofIssue (Sources.ofPaths files symbols paths).files declaration.issue =
      .ok ⟨path, declaration.identifier⟩ := by
  have hfile : declaration.location.file = path :=
    SourceFile.file_location (SourceFile.mem_of_enclosing? henclosing)
  unfold ofIssue
  simp only [Declaration.issue, hfile, Sources.find?_ofPaths hpath htext, henclosing]

/-- The fix for an issue is that of the innermost type around it. -/
theorem exists_of_ofIssue {issue : LanguageOverride} {fix : RestoreFix}
    (h : ofIssue (Sources.ofPaths files symbols paths).files issue = .ok fix) :
    issue.location.file ∈ paths ∧
      ∃ text, Sources.readSource files issue.location.file = .ok text ∧
        ∃ declaration, (SourceFile.parse issue.location.file text symbols).enclosing?
            issue.location.line issue.location.col = some declaration ∧
          fix = ⟨issue.location.file, declaration.identifier⟩ := by
  unfold ofIssue at h
  dsimp only at h
  split at h
  · cases h
  · rename_i file hfind
    obtain ⟨path, hpath, text, htext, rfl⟩ :=
      Sources.mem_ofPaths.mp (List.mem_of_find?_eq_some hfind)
    have hkey := List.find?_some hfind
    obtain rfl : path = issue.location.file := beq_iff_eq.mp hkey
    split at h
    · cases h
    · rename_i declaration henclosing
      cases h
      refine ⟨hpath, text, htext, declaration, henclosing, ?_⟩
      rw [SourceFile.file_location (SourceFile.mem_of_enclosing? henclosing)]
      rfl

end Issue

theorem companionPath?_eq_some_iff {fix : RestoreFix} {path : Path} :
    fix.companionPath? files = some path ↔
      ∃ directory, files.resolve (directoryOf fix.declaringFile) = .ok directory ∧
        files.hasDirectory directory = true ∧
        files.listsFile directory (fix.typeName ++ "." ++ resourceExtension) = true ∧
        path = (directoryOf fix.declaringFile).join (fix.typeName ++ "." ++ resourceExtension) := by
  rw [companionPath?, companion?_eq]
  cases files.resolve (directoryOf fix.declaringFile) with
  | error error => simp [Except.toOption]
  | ok directory =>
      simp only [Except.ok.injEq, exists_eq_left']
      cases files.hasDirectory directory with
      | false => simp [Except.toOption]
      | true =>
          cases files.listsFile directory (fix.typeName ++ "." ++ resourceExtension) with
          | false => simp [Except.toOption]
          | true =>
              simp only [if_true, Except.toOption, Option.join_some, Option.some_inj, true_and]
              exact eq_comm

/-- A fix restores the file with the type's name in the directory of the declaration. -/
theorem place?_eq_some_iff {fix : RestoreFix} {place : Place} :
    fix.place? files = some place ↔
      ∃ directory, files.resolve (directoryOf fix.declaringFile) = .ok directory ∧
        files.hasDirectory directory = true ∧
        files.listsFile directory (fix.typeName ++ "." ++ resourceExtension) = true ∧
        files.resolve ((directoryOf fix.declaringFile).join
          (fix.typeName ++ "." ++ resourceExtension)) = .ok place := by
  rw [← map_snd_target?, Option.map_eq_some_iff]
  simp only [Prod.exists, target?_eq_some_iff, companionPath?_eq_some_iff]
  constructor
  · rintro ⟨_, _, ⟨⟨directory, hdirectory, hhas, hlists, rfl⟩, hplace⟩, rfl⟩
    exact ⟨directory, hdirectory, hhas, hlists, hplace⟩
  · rintro ⟨directory, hdirectory, hhas, hlists, hplace⟩
    exact ⟨_, _, ⟨⟨directory, hdirectory, hhas, hlists, rfl⟩, hplace⟩, rfl⟩

end RestoreFix

namespace Session

theorem resources_fst_of_none {session : Session} (h : session.project.resources = none) :
    session.resources.1 = readResources session.files session.project.resourceFiles := by
  simp only [resources, h]

variable [Grammar] {session : Session}

theorem sources_fst_of_none (h : session.project.sources = none) :
    session.sources.1 = .ofPaths session.files session.project.config.preprocessorSymbols
      session.project.sourceFiles := by
  simp only [sources, h]

/-- The issues of a project are those of the declarations that have to be reported. -/
theorem mem_issues (uncancelled : session.project.cancellation = .never)
    (dotless : ∀ file ∈ session.sources.1.files, ∀ declaration ∈ file.declarations,
      '.' ∉ declaration.identifier.toList)
    {found : List LanguageOverride} (hfound : session.issues.1 = .ok found)
    {issue : LanguageOverride} :
    issue ∈ found ↔ ∃ file ∈ session.sources.1.files, ∃ declaration ∈ file.declarations,
      Reported session.resources.1 session.project.filter declaration ∧
      declaration.issue = issue := by
  rw [(issues_spec uncancelled).1, Except.ok.injEq] at hfound
  rw [← hfound, (List.mergeSort_perm _ _).mem_iff, Sources.types,
    (session.analysis.flatMap_ofType_perm dotless).mem_iff, analysis, reports_eq_decide]
  simp only [List.mem_map, List.mem_filter, List.mem_flatMap, decide_eq_true_eq]
  constructor
  · rintro ⟨declaration, ⟨⟨file, hfile, hdeclaration⟩, hreported⟩, hissue⟩
    exact ⟨file, hfile, declaration, hdeclaration, hreported, hissue⟩
  · rintro ⟨file, hfile, declaration, hdeclaration, hreported, hissue⟩
    exact ⟨declaration, ⟨⟨file, hfile, hdeclaration⟩, hreported⟩, hissue⟩

/-- The innermost type around a place in one of the source files of a project. -/
def Encloses (session : Session) (location : Location) (declaration : Declaration) : Prop :=
  location.file ∈ session.project.sourceFiles ∧
    ∃ text, Sources.readSource session.files location.file = .ok text ∧
      (SourceFile.parse location.file text
        session.project.config.preprocessorSymbols).enclosing? location.line location.col =
          some declaration

/-- Fixes restore the files of the types around their issues. -/
theorem exists_of_mem_places (hsources : session.project.sources = none)
    {issues : List LanguageOverride} {place : Place}
    (h : place ∈ Batch.places (Batch.ofIssues session.sources.1.files issues).fixes
      session.files) :
    ∃ issue ∈ issues, ∃ declaration, session.Encloses issue.location declaration ∧
      ∃ directory, session.files.resolve (directoryOf issue.location.file) = .ok directory ∧
        session.files.hasDirectory directory = true ∧
        session.files.listsFile directory
          (declaration.identifier ++ "." ++ resourceExtension) = true ∧
        session.files.resolve ((directoryOf issue.location.file).join
          (declaration.identifier ++ "." ++ resourceExtension)) = .ok place := by
  obtain ⟨fix, hfix, hplace⟩ := List.mem_filterMap.mp h
  rw [Batch.fixes_ofIssues, List.mem_filterMap, sources_fst_of_none hsources] at hfix
  obtain ⟨issue, hissue, hfix⟩ := hfix
  cases hof : RestoreFix.ofIssue (Sources.ofPaths session.files
      session.project.config.preprocessorSymbols session.project.sourceFiles).files issue with
  | error failure =>
      rw [hof] at hfix
      cases hfix
  | ok found =>
      rw [hof] at hfix
      obtain rfl : found = fix := Option.some.inj hfix
      obtain ⟨hpath, text, htext, declaration, henclosing, rfl⟩ :=
        RestoreFix.exists_of_ofIssue hof
      rw [RestoreFix.place?_eq_some_iff] at hplace
      exact ⟨issue, hissue, declaration, ⟨hpath, text, htext, henclosing⟩, hplace⟩

end Session

end ResourceLanguage
