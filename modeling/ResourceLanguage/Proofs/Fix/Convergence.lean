import ResourceLanguage.Proofs.Config.Discovery
import ResourceLanguage.Proofs.Fix.Declared
import ResourceLanguage.Proofs.Scan
import ResourceLanguage.Proofs.Text.Encoding

/-!
Fixing all issues of a project leaves none. A check after the fix works on the same files under
the same configuration, for restorations change neither the tree nor a configuration file, and in
no resource file of the project is the marker left.
-/

namespace ResourceLanguage

open ResourceLanguage.CSharp ResourceLanguage.Text

/-! ### The configuration -/

namespace Config

variable {after files : Workspace}

theorem findIn_of_sameTree (h : after.SameTree files) (directories : List Path) :
    findIn after directories = findIn files directories := by
  induction directories with
  | nil => rfl
  | cons directory directories ih => simp only [findIn, h.pathExists_eq, ih]

theorem eq_join_of_findIn {directories : List Path} {path : Path}
    (h : findIn files directories = some path) :
    ∃ directory, path = Path.join directory fileName := by
  induction directories with
  | nil => cases h
  | cons directory directories ih =>
      rw [findIn] at h
      split at h
      · cases h
        exact ⟨directory, rfl⟩
      · split at h
        · cases h
        · exact ih h

/-- The configuration stays the same where no configuration file is rewritten. -/
theorem load_of_sameTree (h : after.SameTree files)
    (hread : ∀ directory, after.read (Path.join directory fileName) =
      files.read (Path.join directory fileName)) (directory : Path) :
    load after directory = load files directory := by
  rw [load, load, find, find, findIn_of_sameTree h]
  split
  · rename_i path hpath
    obtain ⟨outer, rfl⟩ := eq_join_of_findIn hpath
    rw [loadFile, loadFile, Workspace.readText, Workspace.readText, hread]
  · rfl

end Config

/-! ### The marker after restorations -/

theorem restoreContent_of_lossy {content : List UInt8}
    (h : hasMarker (decodeLossy content) = false) : restoreContent content = content := by
  apply restoreContent_of_not_marked
  rintro ⟨text, htext, hmarked⟩
  rw [hasMarker_of_fromUTF8? htext, hasMarker_eq_any_textLines, hmarked] at h
  cases h

theorem any_textLines_restoredText (text : String) :
    (textLines (restoredText text)).any hasMarker =
      (stripMarkerLines (textLines text)).any hasMarker := by
  have hcount := markedLineCount_restoredText text
  rw [markedLineCount] at hcount
  rw [Bool.eq_iff_iff, List.any_eq_true, List.any_eq_true, ← List.countP_pos_iff,
    ← List.countP_pos_iff, hcount]

/-- Where one restoration takes the whole marker away, further ones find nothing to do. -/
theorem hasMarker_iterate_restoreContent {content : List UInt8} {text : String}
    (htext : String.fromUTF8? content.toByteArray = some text)
    (hstripped : (stripMarkerLines (textLines text)).any hasMarker = false) {n : ℕ} (hn : n ≠ 0) :
    hasMarker (decodeLossy (restoreContent^[n] content)) = false := by
  cases hlossy : hasMarker (decodeLossy content) with
  | false => rwa [Function.iterate_fixed (restoreContent_of_lossy hlossy)]
  | true =>
      rw [hasMarker_of_fromUTF8? htext, hasMarker_eq_any_textLines] at hlossy
      have hrestored := any_textLines_restoredText text
      rw [hstripped] at hrestored
      have hafter : hasMarker (decodeLossy (restoreContent content)) = false := by
        rw [restoreContent_of_marked htext hlossy, hasMarker_of_fromUTF8? (fromUTF8?_toUTF8 _),
          hasMarker_eq_any_textLines, hrestored]
      obtain ⟨n, rfl⟩ := Nat.exists_eq_succ_of_ne_zero hn
      rwa [Function.iterate_succ_apply, Function.iterate_fixed (restoreContent_of_lossy hafter)]

/-- Restorations leave no marker in a file where a restoration takes it away. -/
theorem Workspace.hasMarker_restoreAll {files : Workspace} {places : List Place} {path : Path}
    {after : List UInt8} (hread : (files.restoreAll places).read path = .ok after)
    (h : ∀ place content, files.resolve path = .ok place → files.read path = .ok content →
      hasMarker (decodeLossy content) = true →
        place ∈ places ∧ ∃ text, String.fromUTF8? content.toByteArray = some text ∧
          (stripMarkerLines (textLines text)).any hasMarker = false) :
    hasMarker (decodeLossy after) = false := by
  cases hplace : files.resolve path with
  | error error =>
      rw [read_eq, (files.sameTree_restoreAll places).resolve_eq, hplace] at hread
      cases hread
  | ok place =>
      rw [files.read_restoreAll places hplace] at hread
      cases hcontent : files.read path with
      | error error =>
          rw [hcontent] at hread
          cases hread
      | ok content =>
          rw [hcontent] at hread
          obtain rfl := Except.ok.inj hread
          cases hmarker : hasMarker (decodeLossy content) with
          | false => rwa [Function.iterate_fixed (restoreContent_of_lossy hmarker)]
          | true =>
              obtain ⟨hmem, text, htext, hstripped⟩ := h place content hplace hcontent hmarker
              refine hasMarker_iterate_restoreContent htext hstripped ?_
              exact fun hzero => List.count_eq_zero.mp hzero hmem

/-! ### A check after the fix -/

namespace Session

section Grammar

variable [Grammar] {session : Session}

/-- A resource file whose marker the fixes of a project take away: one restoration of its text is
enough, and a type with members that has its name is declared in its directory, in a source file
that is not ignored. The file may have syntax errors elsewhere. -/
structure Repairable (session : Session) (path : Path) (content : List UInt8) : Prop where
  stripped : ∃ text, String.fromUTF8? content.toByteArray = some text ∧
    (stripMarkerLines (textLines text)).any hasMarker = false
  declared : ∃ file ∈ session.sources.1.files, file.Orderly ∧
    ∃ declaration ∈ file.declarations,
      session.project.filter.isIgnored file.path = false ∧
      declaration.kind.hasMembers = true ∧
      path.fileStem? = some declaration.identifier ∧
      session.files.resolve (directoryOf file.path) = session.files.resolve (directoryOf path)

/-- The place of a marked file that can be repaired is restored. -/
theorem mem_places_of_repairable (uncancelled : session.project.cancellation = .never)
    (hsources : session.project.sources = none) (hresources : session.project.resources = none)
    (dotless : ∀ file ∈ session.sources.1.files, ∀ declaration ∈ file.declarations,
      '.' ∉ declaration.identifier.toList)
    {found : List LanguageOverride} (hfound : session.issues.1 = .ok found)
    {path : Path} (hpath : path ∈ session.project.resourceFiles)
    (hextension : path.extension? = some resourceExtension) {place : Place}
    (hplace : session.files.resolve path = .ok place)
    {content : List UInt8} (hread : session.files.read path = .ok content)
    (hmarker : hasMarker (decodeLossy content) = true) (h : session.Repairable path content) :
    place ∈ Batch.places (Batch.ofIssues session.sources.1.files found).fixes session.files := by
  obtain ⟨file, hfile, horderly, declaration, hdeclaration, hignored, hkind, hstem,
    hdirectory⟩ := h.declared
  -- The declaration is reported, for the file with its name has the marker.
  have hreported : Reported session.resources.1 session.project.filter declaration := by
    refine ⟨⟨⟨path, decodeLossy content⟩, ?_, occursIn_iff_isInfix.mp hmarker, hstem⟩, ?_⟩
    · rw [resources_fst_of_none hresources]
      exact mem_readResources.mpr ⟨path, hpath, content, hread, rfl⟩
    · rwa [SourceFile.file_location hdeclaration]
  have hissue : declaration.issue ∈ found :=
    (mem_issues uncancelled dotless hfound).mpr
      ⟨file, hfile, declaration, hdeclaration, hreported, rfl⟩
  -- Its fix looks for that very file, in the same directory.
  rw [sources_fst_of_none hsources] at hfile ⊢
  obtain ⟨source, hsource, text, htext, rfl⟩ := Sources.mem_ofPaths.mp hfile
  have hfix : (⟨source, declaration.identifier⟩ : RestoreFix) ∈
      (Batch.ofIssues (Sources.ofPaths session.files session.project.config.preprocessorSymbols
        session.project.sourceFiles).files found).fixes := by
    rw [Batch.fixes_ofIssues, List.mem_filterMap]
    refine ⟨declaration.issue, hissue, ?_⟩
    rw [RestoreFix.ofIssue_issue hsource htext (horderly.enclosing?_of_mem hdeclaration hkind
      (Path.stem_ne_of_extension? hstem hextension))]
    rfl
  refine List.mem_filterMap.mpr ⟨_, hfix, ?_⟩
  rw [RestoreFix.place?_eq_some_iff]
  have hname := Path.fileName?_of_extension? hstem hextension
  obtain ⟨directory, hresolve, hhas, rfl⟩ := Workspace.resolve_directoryOf hplace hname
  have hentry := Workspace.content?_eq_some_iff.mp (Workspace.content?_of_read hplace hread)
  have hlists := Workspace.listsFile_of_entry? hentry
  exact ⟨directory, hdirectory.trans hresolve, hhas, hlists,
    Workspace.resolve_join_of_listsFile (hdirectory.trans hresolve) hhas
      (Path.isName_of_fileName? hname) hlists⟩

/-- Fixes never rewrite a configuration file: they rewrite resource files only. -/
theorem read_config_restoreAll (hsources : session.project.sources = none)
    (found : List LanguageOverride) (directory : Path) :
    (session.files.restoreAll (Batch.places (Batch.ofIssues session.sources.1.files found).fixes
        session.files)).read (directory.join Config.fileName) =
      session.files.read (directory.join Config.fileName) := by
  by_contra hne
  obtain ⟨place, hplace, hconfig, -⟩ := Workspace.read_restoreAll_ne_iff.mp hne
  obtain ⟨issue, -, declaration, -, -, -, -, -, hresource⟩ := exists_of_mem_places hsources hplace
  -- Even with a slash in the type's name, the last component keeps the extension.
  obtain ⟨outer, name, hname, hjoin⟩ := Path.exists_join_eq (directoryOf issue.location.file)
    declaration.identifier (by decide : '/' ∉ ("." ++ resourceExtension).toList)
  rw [String.append_assoc, hjoin, ← String.append_assoc] at hresource
  obtain ⟨first, -, -, hfirst⟩ := Workspace.resolve_directoryOf hresource
    (Path.fileName?_join outer (isName_resource hname))
  obtain ⟨second, -, -, hsecond⟩ := Workspace.resolve_directoryOf hconfig
    (Path.fileName?_join directory Config.isName_fileName)
  have hlast := congrArg (fun names : Place => names.getLast?.map (·.toList.getLast?))
    (List.append_inj' (hfirst.symm.trans hsecond) rfl).2
  simp [resourceExtension, Config.fileName] at hlast

theorem issues_eq_nil (uncancelled : session.project.cancellation = .never)
    (hresources : session.project.resources = none)
    (hunmarked : ∀ path ∈ session.project.resourceFiles, ∀ content,
      session.files.read path = .ok content → hasMarker (decodeLossy content) = false) :
    session.issues.1 = .ok [] := by
  have hempty : session.analysis.markedNames.isEmpty = true := by
    rw [List.isEmpty_iff, List.eq_nil_iff_forall_not_mem]
    intro name hname
    obtain ⟨resource, hresource, hmarker, -⟩ := mem_markedNames.mp hname
    rw [resources_fst_of_none hresources] at hresource
    obtain ⟨path, hpath, content, hread, rfl⟩ := mem_readResources.mp hresource
    have hfalse := hunmarked path hpath content hread
    rw [hasMarker, occursIn_iff_isInfix.mpr hmarker] at hfalse
    cases hfalse
  rw [(issues_spec uncancelled).1, Analysis.flatMap_ofType_of_isEmpty hempty, List.mergeSort_nil]

end Grammar

/-- Fixing all issues of a project whose marked resource files can be repaired leaves a project
without issues, whatever the grammar, as long as names have no dots in them. -/
theorem issues_after_commit [Grammar] {files : Workspace} {sourceRoot : Option Path}
    {verbose : Bool} {session : Session}
    (hstart : (start files sourceRoot verbose).1 = .ok session)
    (dotless : ∀ file ∈ session.sources.1.files, ∀ declaration ∈ file.declarations,
      '.' ∉ declaration.identifier.toList)
    (hrepairable : ∀ path ∈ session.project.resourceFiles, ∀ content,
      files.read path = .ok content → hasMarker (decodeLossy content) = true →
        session.Repairable path content) :
    ∃ found stats fresh, session.issues.1 = .ok found ∧
      (session.issues.2.commit found).1 = .ok stats ∧
      (start (session.issues.2.commit found).2.files sourceRoot verbose).1 = .ok fresh ∧
      fresh.issues.1 = .ok [] := by
  obtain ⟨loaded, hload, hroot, hsession⟩ := start_eq_ok_iff.mp hstart
  obtain ⟨hfiles, uncancelled, hsources, hresources⟩ := of_start hstart
  obtain ⟨hfound, hissueFiles, hissueCancellation, hissueSources⟩ := issues_spec uncancelled
  generalize List.mergeSort _ _ = found at hfound
  obtain ⟨log, hstats, hafter, -⟩ := session.issues.2.commit_spec found hissueCancellation
  rw [batch_fst, hissueSources, hissueFiles] at hafter
  generalize hplaces : Batch.places _ _ = places at hafter
  have hrewritten := session.files.rewritten_restoreAll places
  -- The check that follows works under the same configuration.
  have hfresh : (start (session.issues.2.commit found).2.files sourceRoot verbose).1 =
      .ok (listed (session.files.restoreAll places) loaded.config sourceRoot verbose) := by
    refine start_eq_ok_iff.mpr ⟨loaded, ?_, ?_, by rw [hafter]⟩
    · rw [hafter, Config.load_of_sameTree hrewritten.toSameTree, hfiles, hload]
      intro directory
      rw [← hplaces]
      exact read_config_restoreAll hsources found directory
    · rw [hafter, hrewritten.isDirectory_eq, hfiles, hroot]
  refine ⟨found, _, _, hfound, hstats, hfresh, issues_eq_nil rfl rfl ?_⟩
  intro path hpath after hread
  replace hpath : path ∈ session.project.resourceFiles := by
    rw [hsession, ← hfiles]
    exact Scan.resourceFiles_subset hrewritten _ _ _ hpath
  refine Workspace.hasMarker_restoreAll hread fun place content hplace hcontent hmarker => ?_
  have h := hrepairable path hpath content (hfiles ▸ hcontent) hmarker
  have hextension : path.extension? = some resourceExtension := by
    rw [hsession] at hpath
    exact Scan.extension?_of_mem_resourceFiles hpath
  rw [← hplaces]
  exact ⟨mem_places_of_repairable uncancelled hsources hresources dotless hfound hpath hextension
    hplace hcontent hmarker h, h.stripped⟩

/-- A form in two parts, with an enumeration of the same name inside, beside its resource file. -/
def nestedForm : Workspace :=
  ⟨[(["Form.cs"], .file "partial class Form { enum Form { } }\nclass Form { }".toUTF8.data.toList),
    (["Form.resx"], .file "<root>\n$this.Language\n</metadata>\n</root>\n".toUTF8.data.toList)],
    []⟩

theorem issues_after_commit_nestedForm :
    ∃ session content, (start nestedForm none false).1 = .ok session ∧
      session.project.resourceFiles = ["./Form.resx"] ∧
      nestedForm.read "./Form.resx" = .ok content ∧ hasMarker (decodeLossy content) = true ∧
      session.Repairable "./Form.resx" content ∧
      ∃ found stats fresh, session.issues.1 = .ok found ∧
        (session.issues.2.commit found).1 = .ok stats ∧
        (start (session.issues.2.commit found).2.files none false).1 = .ok fresh ∧
        fresh.issues.1 = .ok [] := by
  let session := listed nestedForm {} none false
  let content := "<root>\n$this.Language\n</metadata>\n</root>\n".toUTF8.data.toList
  let file := SourceFile.parse "./Form.cs" "partial class Form { enum Form { } }\nclass Form { }" []
  have hstart : (start nestedForm none false).1 = .ok session := by decide +kernel
  have hlisted : session.project.resourceFiles = ["./Form.resx"] := by decide +kernel
  have hread : nestedForm.read "./Form.resx" = .ok content := by decide +kernel
  have hsources : session.sources.1 = .ofPaths nestedForm [] session.project.sourceFiles :=
    sources_fst_of_none rfl
  have hfile : file ∈ session.sources.1.files := by
    rw [hsources]
    exact Sources.mem_ofPaths.mpr
      ⟨"./Form.cs", by decide +kernel, _, by decide +kernel, rfl⟩
  have hdotless : ∀ file ∈ session.sources.1.files, ∀ declaration ∈ file.declarations,
      '.' ∉ declaration.identifier.toList := by
    rw [hsources]
    exact Sources.dotless_ofPaths _ _ _
  have hdeclared : ∃ declaration ∈ file.declarations,
      session.project.filter.isIgnored file.path = false ∧ declaration.kind.hasMembers = true ∧
        Path.fileStem? "./Form.resx" = some declaration.identifier ∧
        nestedForm.resolve (directoryOf file.path) =
          nestedForm.resolve (directoryOf "./Form.resx") := by
    decide +kernel
  have hrepairable : session.Repairable "./Form.resx" content :=
    ⟨⟨_, fromUTF8?_toUTF8 _, by decide +kernel⟩, file, hfile,
      (SourceFile.wellFormed_parse _ _ _).orderly, hdeclared⟩
  refine ⟨session, content, hstart, hlisted, hread, by decide +kernel, hrepairable,
    issues_after_commit hstart hdotless ?_⟩
  intro path hpath content' hcontent' _
  rw [hlisted, List.mem_singleton] at hpath
  subst hpath
  rw [hread, Except.ok.injEq] at hcontent'
  exact hcontent' ▸ hrepairable

end Session

end ResourceLanguage
