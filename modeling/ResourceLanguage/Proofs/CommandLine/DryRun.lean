import ResourceLanguage.Proofs.Analysis.Issues
import ResourceLanguage.Proofs.CommandLine.Shown
import ResourceLanguage.Proofs.Fix.Preview

/-!
What a dry run of a fix says about applying it. Both find the same issues and look for the same
resource files. The dry run plans for a file exactly when the text of the file has the marker, and
such files are those that change when the fix is applied, however many issues share them.
-/

namespace ResourceLanguage

/-! ### Planned and changed files -/

namespace Batch

/-- A preview goes through only if no fix fails. -/
theorem fails_of_previewAll {fixes : List RestoreFix} {files : Workspace} {plans : List Plan}
    (h : (previewAll fixes ⟨files, .never⟩).1 = .ok plans) :
    ∀ fix ∈ fixes, fix.fails files = false := by
  induction fixes generalizing plans with
  | nil => nofun
  | cons fix fixes ih =>
      have hfirst : fix.fails files = false ∧ ∃ outcome,
          fix.run .preview ⟨files, .never⟩ = (.ok outcome, ⟨files, .never⟩) := by
        rcases fix.preview_cases files with ⟨_, failure, hrun⟩ | ⟨hfails, _, hrun⟩ |
          ⟨hfails, _, _, _, _, _, _, hrun⟩
        · rw [previewAll, hrun] at h
          cases h
        · exact ⟨hfails, _, hrun⟩
        · exact ⟨hfails, _, hrun⟩
      obtain ⟨hfails, outcome, hrun⟩ := hfirst
      rw [previewAll, hrun] at h
      cases hrest : (previewAll fixes ⟨files, .never⟩).1 with
      | error error => simp [hrest, Except.map] at h
      | ok rest => exact List.forall_mem_cons.mpr ⟨hfails, ih hrest⟩

theorem fails_of_preview {batch : Batch} {files : Workspace} {preview : Preview}
    (h : (batch.preview ⟨files, .never⟩).1 = .ok preview) :
    ∀ fix ∈ batch.fixes, fix.fails files = false := by
  rw [Batch.preview] at h
  cases hplans : (previewAll batch.fixes ⟨files, .never⟩).1 with
  | error error => simp [hplans, Except.map] at h
  | ok plans => exact fails_of_previewAll hplans

/-- A batch that is not cancelled writes where restorations change something. -/
theorem commit_log (batch : Batch) (files : Workspace) :
    let result := batch.commit ⟨files, .never⟩
    result.stopped = none ∧
      result.world = ⟨files.restoreAll (Batch.places batch.fixes files), .never⟩ ∧
      result.log.applied.map (·.path) =
        (files.changing (Batch.targets batch.fixes files)).map Prod.fst ∧
      result.log.failures.length = batch.fixes.countP (·.fails files) := by
  obtain ⟨plans, failures, hcommit, hplans, hfailures⟩ := commitAll_never batch.fixes {} files
  rw [commit, hcommit]
  exact ⟨rfl, by rw [map_snd_targets], hplans, hfailures⟩

end Batch

theorem previewAll_snd (fixes : List RestoreFix) (files : Workspace) :
    (Batch.previewAll fixes ⟨files, .never⟩).2 = ⟨files, .never⟩ := by
  induction fixes with
  | nil => rfl
  | cons fix fixes ih =>
      rw [Batch.previewAll]
      rcases fix.preview_cases files with ⟨_, failure, hrun⟩ | ⟨_, _, hrun⟩ |
        ⟨_, _, _, _, _, _, _, hrun⟩
      · rw [hrun]
      · rw [hrun]
        exact ih
      · rw [hrun]
        exact ih

namespace PlansFor

variable {fixes : List RestoreFix} {files : Workspace} {plans : List Plan}

theorem marked_target (h : PlansFor fixes files plans) {plan : Plan} (hplan : plan ∈ plans) :
    ∃ place, (plan.path, place) ∈ Batch.targets fixes files ∧ ¬files.Unmarked place := by
  obtain ⟨place, text, hmem, htext, hmarker, _⟩ := h.sound plan hplan
  refine ⟨place, hmem, fun hunmarked => ?_⟩
  obtain ⟨place', content, hplace, hcontent, hutf⟩ := Workspace.readText_eq_ok_iff.mp htext
  obtain rfl := Except.ok.inj (hplace.symm.trans (Batch.resolve_of_mem_targets hmem))
  exact hunmarked content hcontent ⟨text, hutf, hmarker⟩

/-- Exactly the files with a plan change. -/
theorem read_restoreAll_ne_iff (h : PlansFor fixes files plans) (path : Path) :
    (files.restoreAll (Batch.places fixes files)).read path ≠ files.read path ↔
      ∃ plan ∈ plans, files.resolve plan.path = files.resolve path := by
  rw [Workspace.read_restoreAll_ne_iff, ← Batch.map_snd_targets]
  constructor
  · rintro ⟨place, hplace, hpath, hmarked⟩
    obtain ⟨target, htarget, rfl⟩ := List.mem_map.mp hplace
    obtain ⟨plan, hplan, hresolve⟩ := h.resolve_eq htarget hmarked
    exact ⟨plan, hplan, hresolve.trans hpath.symm⟩
  · rintro ⟨plan, hplan, hpath⟩
    obtain ⟨place, htarget, hmarked⟩ := h.marked_target hplan
    rw [Batch.resolve_of_mem_targets htarget] at hpath
    exact ⟨place, List.mem_map_of_mem htarget, hpath.symm, hmarked⟩

/-- Where different paths lead to different files, the paths with a plan are those at which a
restoration changes something. -/
theorem components_changing (h : PlansFor fixes files plans)
    (distinct : Batch.DistinctFiles fixes files) :
    (plans.map (·.path.components)).toFinset =
      ((files.changing (Batch.targets fixes files)).map (·.1.components)).toFinset := by
  have hsub := (files.changing_sublist (Batch.targets fixes files)).subset
  ext components
  simp only [List.mem_toFinset, List.mem_map]
  constructor
  · rintro ⟨plan, hplan, rfl⟩
    obtain ⟨place, htarget, hmarked⟩ := h.marked_target hplan
    have hplace : place ∈ (files.changing (Batch.targets fixes files)).map Prod.snd := by
      rw [Workspace.mem_changing_iff, Workspace.content?_restoreAll_ne_iff]
      exact ⟨List.mem_map_of_mem htarget, hmarked⟩
    obtain ⟨target, hchanging, rfl⟩ := List.mem_map.mp hplace
    exact ⟨target, hchanging, distinct target (hsub hchanging) (plan.path, target.2) htarget rfl⟩
  · rintro ⟨target, hchanging, rfl⟩
    apply h.complete target (hsub hchanging)
    have hplace := (files.mem_changing_iff _ _).mp (List.mem_map_of_mem hchanging)
    exact (Workspace.content?_restoreAll_ne_iff.mp hplace).2

end PlansFor

/-! ### Working on a project -/

namespace Session

variable [CSharp.Grammar]

@[simp] theorem batch_fst_sources (session : Session) (issues : List LanguageOverride) :
    (session.sources.2.batch issues).1 = (session.batch issues).1 := by
  rw [batch_fst, batch_fst, sources_fst_sources]

theorem preview_fst {session : Session} (uncancelled : session.project.cancellation = .never)
    (issues : List LanguageOverride) :
    (session.preview issues).1 = ((session.batch issues).1.preview ⟨session.files, .never⟩).1 := by
  rw [← world_batch uncancelled issues]
  rfl

theorem files_preview {session : Session} (uncancelled : session.project.cancellation = .never)
    (issues : List LanguageOverride) : (session.preview issues).2.files = session.files := by
  show ((session.batch issues).1.preview (session.batch issues).2.world).2.files = session.files
  rw [world_batch uncancelled]
  exact congrArg World.files (previewAll_snd _ _)

theorem preview_fst_sources {session : Session}
    (uncancelled : session.project.cancellation = .never) (issues : List LanguageOverride) :
    (session.sources.2.preview issues).1 = (session.preview issues).1 := by
  have huncancelled : session.sources.2.project.cancellation = .never :=
    session.cancellation_sources.trans uncancelled
  rw [preview_fst huncancelled, preview_fst uncancelled, batch_fst_sources, files_sources]

theorem failed_commit {session : Session} (uncancelled : session.project.cancellation = .never)
    (issues : List LanguageOverride) :
    ∃ stats, (session.commit issues).1 = .ok stats ∧
      stats.failed = (session.batch issues).1.fixes.countP (·.fails session.files) := by
  obtain ⟨hstopped, _, _, hfailures⟩ := (session.batch issues).1.commit_log session.files
  rw [commit]
  dsimp only
  rw [world_batch uncancelled, hstopped]
  exact ⟨_, rfl, hfailures⟩

end Session

namespace CommandLine

open ResourceLanguage.Text

theorem inDocument_subset {files : Workspace} {document : Path}
    {found issues : List LanguageOverride}
    (h : inDocument files document found = .ok issues) : issues ⊆ found := by
  rw [inDocument] at h
  split at h
  · cases h
  · cases h
    exact List.filter_subset_self found

section Grammar

variable [CSharp.Grammar]

/-- The project and the issues that a fix works on, applied or not. -/
def fixWork (files : Workspace) (options : Options) :
    Except CommandError (Session × List LanguageOverride) :=
  match Session.start files options.sourceRoot options.verbose with
  | (.error failure, _) => .error (.work failure)
  | (.ok session, notices) =>
      match { session with notices := notices ++ session.notices }.issues with
      | (.error cause, _) => .error (.work (.cancelled cause))
      | (.ok found, session) =>
          match options.document with
          | none => .ok (session, found)
          | some document =>
              match inDocument session.files document found with
              | .error failure => .error (.work failure)
              | .ok issues => .ok (session, issues)

/-- A fix fails early, or goes on with its work. -/
theorem runFix_spec (files : Workspace) (palette : Palette) (options : Options) (apply : Bool) :
    match fixWork files options with
    | .error error => (runFix files palette { options with apply }).result = .error error
    | .ok (session, issues) =>
        runFix files palette { options with apply } =
          fixIssues palette { options with apply } issues session := by
  -- `delta`, since the equations of these definitions look into `Session.start`.
  delta fixWork runFix withSession
  rcases Session.start files options.sourceRoot options.verbose with ⟨failure | first, notices⟩
  · rfl
  · rcases hissues : { first with notices := notices ++ first.notices }.issues with
      ⟨cause | found, session⟩
    · simp only [hissues, finish]
    · cases options.document with
      | none => simp only [hissues]
      | some document =>
          cases hfilter : inDocument session.files document found with
          | error failure => simp only [hissues, hfilter, finish]
          | ok issues => simp only [hissues, hfilter]

theorem exists_fixWork_of_ok {files : Workspace} {palette : Palette} {options : Options}
    {apply : Bool} {status : ExitStatus}
    (h : (runFix files palette { options with apply }).result = .ok status) :
    ∃ session issues, fixWork files options = .ok (session, issues) := by
  have hspec := runFix_spec files palette options apply
  cases hwork : fixWork files options with
  | error error =>
      rw [hwork] at hspec
      cases h.symm.trans hspec
  | ok work => exact ⟨work.1, work.2, rfl⟩

theorem runFix_of_fixWork {files : Workspace} {options : Options} {session : Session}
    {issues : List LanguageOverride} (h : fixWork files options = .ok (session, issues))
    (palette : Palette) (apply : Bool) :
    runFix files palette { options with apply } =
      fixIssues palette { options with apply } issues session := by
  have hspec := runFix_spec files palette options apply
  rwa [h] at hspec

theorem fixWork_cases {files : Workspace} {options : Options} {session : Session}
    {issues : List LanguageOverride} (h : fixWork files options = .ok (session, issues)) :
    ∃ first notices found,
      Session.start files options.sourceRoot options.verbose = (.ok first, notices) ∧
      { first with notices := notices ++ first.notices }.issues = (.ok found, session) ∧
      issues ⊆ found := by
  delta fixWork at h
  revert h
  rcases Session.start files options.sourceRoot options.verbose with ⟨failure | first, notices⟩
  · nofun
  · intro h
    refine ⟨first, notices, ?_⟩
    rcases hissues : { first with notices := notices ++ first.notices }.issues with
      ⟨cause | found, later⟩
    · simp only [hissues] at h
      cases h
    · cases hdocument : options.document with
      | none =>
          simp only [hissues, hdocument] at h
          cases h
          exact ⟨issues, rfl, hissues, List.Subset.refl _⟩
      | some document =>
          cases hfilter : inDocument later.files document found with
          | error failure =>
              simp only [hissues, hdocument, hfilter] at h
              cases h
          | ok kept =>
              simp only [hissues, hdocument, hfilter] at h
              cases h
              exact ⟨found, rfl, hissues, inDocument_subset hfilter⟩

/-- What a fix works on has been found without any change to the files. -/
theorem fixWork_spec {files : Workspace} {options : Options} {session : Session}
    {issues : List LanguageOverride} (h : fixWork files options = .ok (session, issues)) :
    ∃ first, (Session.start files options.sourceRoot options.verbose).1 = .ok first ∧
      session.files = files ∧ session.project.cancellation = .never ∧
      session.sources.1 = first.sources.1 ∧
      ∃ found, first.issues.1 = .ok found ∧ issues ⊆ found := by
  obtain ⟨first, notices, found, hstart, hissues, hsubset⟩ := fixWork_cases h
  obtain ⟨hfiles, huncancelled, -⟩ := Session.of_start (congrArg Prod.fst hstart)
  -- The first remarks are noted before the issues are looked for, and have no part in it.
  have hfound := @Session.issues_fst_congr _
    { first with notices := notices ++ first.notices } first rfl rfl huncancelled
  have hsources := @Session.sources_fst_congr _
    { first with notices := notices ++ first.notices } first rfl rfl rfl rfl
  obtain ⟨_, hsame, hnever, hlater⟩ :=
    @Session.issues_spec _ { first with notices := notices ++ first.notices } huncancelled
  rw [hissues] at hfound hsame hnever hlater
  exact ⟨first, congrArg Prod.fst hstart, hsame.trans hfiles, hnever, hlater.trans hsources, found,
    hfound.symm, hsubset⟩

def dryRunOutput (palette : Palette) (session : Session) (issues : List LanguageOverride)
    (preview : Batch.Preview) : String :=
  if issues.isEmpty then
    Report.success palette session.project.sourceFiles.length session.project.resourceFiles.length
  else previewReport palette issues.length preview

theorem preview_nil (session : Session) : (session.preview []).1 = .ok ⟨[], {}⟩ := by
  show Except.ok (⟨Batch.distinctPlans [], _⟩ : Batch.Preview) = _
  rw [Batch.distinctPlans, List.foldl_nil, List.mergeSort_nil]
  rfl

/-- A reader finds the paths of the plans in what a dry run prints. -/
theorem pathsIn_dryRunOutput (palette : Palette) {session : Session}
    {issues : List LanguageOverride} {preview : Batch.Preview}
    (hpreview : (session.preview issues).1 = .ok preview)
    (hpaths : ∀ plan ∈ preview.plans, IsPlain plan.path) :
    Diff.pathsIn (dryRunOutput palette session issues preview) = preview.plans.map (·.path) := by
  rw [dryRunOutput]
  split
  · rename_i hempty
    rw [List.isEmpty_iff.mp hempty, preview_nil] at hpreview
    cases hpreview
    exact pathsIn_success palette _ _
  · exact pathsIn_previewReport palette issues.length hpaths

/-- A dry run ends as its preview does. -/
theorem fixIssues_dryRun {session : Session} (uncancelled : session.project.cancellation = .never)
    (readable : session.sources.1.unreadable = []) (palette : Palette) (options : Options)
    (issues : List LanguageOverride) :
    let dry := fixIssues palette { options with apply := false } issues session
    dry.files = session.files ∧
      match (session.preview issues).1 with
      | .error error => dry.result = .error (.fix error)
      | .ok preview =>
          dry.result = .ok (if preview.plans.isEmpty then .success else .failure) ∧
            dry.out = dryRunOutput palette session issues preview := by
  intro dry
  cases issues with
  | nil =>
      rw [preview_nil]
      refine ⟨session.files_sources, ?_, ?_⟩
      · show Except.ok (fixStatus session.sources.1.unreadable.length false) = _
        rw [readable]
        rfl
      · show Report.success palette session.sources.2.project.sourceFiles.length
          session.sources.2.project.resourceFiles.length = _
        rw [session.sourceFiles_sources, session.resourceFiles_sources]
        rfl
  | cons issue issues =>
      have hfiles := session.sources.2.files_preview
        (session.cancellation_sources.trans uncancelled) (issue :: issues)
      rw [← session.preview_fst_sources uncancelled (issue :: issues)]
      rw [Session.files_sources] at hfiles
      rcases hlast : session.sources.2.preview (issue :: issues) with ⟨error | preview, last⟩
      · have hdry : dry = finish palette last (.error (.fix error)) "" "" := by
          simp [dry, fixIssues, hlast]
        rw [hlast] at hfiles
        exact ⟨hdry ▸ hfiles, by rw [hdry]; rfl⟩
      · have hdry : dry = finish palette last (.ok (fixStatus 0 !preview.plans.isEmpty))
            (previewReport palette (issue :: issues).length preview)
            (Report.unreadableWarning palette 0 options.verbose) := by
          simp [dry, fixIssues, hlast, readable]
        rw [hlast] at hfiles
        refine ⟨hdry ▸ hfiles, ?_, by rw [hdry]; rfl⟩
        cases hplans : preview.plans.isEmpty <;> simp [hdry, finish, fixStatus, hplans]

/-- A fix that is applied ends as its commits do. -/
theorem fixIssues_apply {session : Session} (uncancelled : session.project.cancellation = .never)
    (palette : Palette) (options : Options) (issues : List LanguageOverride) :
    let applied := fixIssues palette { options with apply := true } issues session
    let fixes := (session.batch issues).1.fixes
    applied.files = session.files.restoreAll (Batch.places fixes session.files) ∧
      applied.result = .ok (fixStatus (session.sources.1.unreadable.length +
        fixes.countP (·.fails session.files)) false) := by
  intro applied fixes
  cases issues with
  | nil => exact ⟨session.files_sources, rfl⟩
  | cons issue issues =>
      have huncancelled : session.sources.2.project.cancellation = .never :=
        session.cancellation_sources.trans uncancelled
      have hfiles := session.sources.2.files_commit (issue :: issues) huncancelled
      obtain ⟨stats, hstats, hfailed⟩ := Session.failed_commit huncancelled (issue :: issues)
      rw [Session.batch_fst_sources, Session.files_sources] at hfiles hfailed
      obtain ⟨last, hlast⟩ :
          ∃ last, session.sources.2.commit (issue :: issues) = (.ok stats, last) :=
        ⟨_, Prod.ext hstats rfl⟩
      have happlied : applied = finish palette last
          (.ok (fixStatus (session.sources.1.unreadable.length + stats.failed) false))
          (commitReport palette (issue :: issues).length stats)
          (Report.unreadableWarning palette session.sources.1.unreadable.length
            options.verbose) := by
        simp [applied, fixIssues, hlast]
      rw [hlast] at hfiles
      rw [happlied, ← hfailed]
      exact ⟨hfiles, rfl⟩

/-- What a dry run says about the same fix when it is applied. `written` are the plans that are
then carried out. -/
structure Foretells (files : Workspace) (fixes : List RestoreFix) (shown written : List Plan)
    (dry applied : CommandResult) : Prop where
  untouched : dry.files = files
  success : applied.result = .ok .success
  failure_iff : dry.result = .ok .failure ↔ ∃ path, applied.files.read path ≠ files.read path
  success_iff : dry.result = .ok .success ↔ ∀ path, applied.files.read path = files.read path
  /-- The files that change are those that were shown. -/
  changed_iff : ∀ path, applied.files.read path ≠ files.read path ↔
    ∃ plan ∈ shown, files.resolve plan.path = files.resolve path
  /-- A reader of the diffs that are printed finds the paths that were shown, and no others. -/
  printed : (∀ plan ∈ shown, IsPlain plan.path) → Diff.pathsIn dry.out = shown.map (·.path)
  /-- The paths that are written are those that were shown. -/
  paths : Batch.DistinctFiles fixes files →
    (shown.map (·.path.components)).toFinset = (written.map (·.path.components)).toFinset

theorem unreadable_ofPaths {files : Workspace} {symbols : Symbols} {paths : List Path}
    (h : ∀ path ∈ paths, ∃ text, Sources.readSource files path = .ok text) :
    (Sources.ofPaths files symbols paths).unreadable = [] := by
  rw [Sources.ofPaths]
  dsimp only
  rw [List.filterMap_map, List.filterMap_eq_nil_iff]
  intro path hpath
  obtain ⟨text, htext⟩ := h path hpath
  simp only [Function.comp_apply, htext]

/-- What the preview of a session says about its commits. -/
theorem foretells_of_preview {session : Session}
    (uncancelled : session.project.cancellation = .never)
    (readable : session.sources.1.unreadable = []) (palette : Palette) (options : Options)
    {issues : List LanguageOverride} {preview : Batch.Preview}
    (hpreview : (session.preview issues).1 = .ok preview) :
    Foretells session.files (session.batch issues).1.fixes preview.plans
      ((session.batch issues).1.commit session.world).log.applied
      (fixIssues palette { options with apply := false } issues session)
      (fixIssues palette { options with apply := true } issues session) := by
  obtain ⟨hdryFiles, hdry⟩ := fixIssues_dryRun uncancelled readable palette options issues
  obtain ⟨happliedFiles, happlied⟩ := fixIssues_apply uncancelled palette options issues
  rw [hpreview] at hdry
  obtain ⟨hresult, hout⟩ := hdry
  have hprinted := pathsIn_dryRunOutput palette hpreview
  rw [Session.preview_fst uncancelled] at hpreview
  have hplans := Batch.plansFor_preview hpreview
  have hfails := Batch.fails_of_preview hpreview
  have hchanged := hplans.read_restoreAll_ne_iff
  have hsome : (∃ path, (session.files.restoreAll
      (Batch.places (session.batch issues).1.fixes session.files)).read path ≠
        session.files.read path) ↔ preview.plans ≠ [] := by
    simp only [hchanged]
    constructor
    · rintro ⟨path, plan, hplan, _⟩
      exact List.ne_nil_of_mem hplan
    · intro hne
      obtain ⟨plan, hplan⟩ := List.exists_mem_of_ne_nil _ hne
      exact ⟨plan.path, plan, hplan, rfl⟩
  refine ⟨hdryFiles, ?_, ?_, ?_, ?_, ?_, ?_⟩
  · have hnone : (session.batch issues).1.fixes.countP (·.fails session.files) = 0 :=
      List.countP_eq_zero.mpr fun fix hfix => by simp [hfails fix hfix]
    rw [happlied, hnone, readable]
    rfl
  · rw [hresult, happliedFiles, hsome]
    cases preview.plans <;> simp
  · rw [hresult, happliedFiles, ← not_iff_not, not_forall]
    simp only [← Ne.eq_def, hsome]
    cases preview.plans <;> simp
  · rwa [happliedFiles]
  · rwa [hout]
  · intro distinct
    have hworld : session.world = ⟨session.files, .never⟩ := by rw [Session.world, uncancelled]
    obtain ⟨_, _, hwritten, _⟩ := (session.batch issues).1.commit_log session.files
    have hcomponents := congrArg (List.map Path.components) hwritten
    rw [List.map_map, List.map_map] at hcomponents
    rw [hplans.components_changing distinct, hworld]
    exact congrArg List.toFinset hcomponents.symm

end Grammar

/-- Where a dry run gives a status and all source files can be read, it tells what applying the
fix does: it fails exactly when some file would change, prints the diffs of the files that would,
and has left all files as they were. -/
theorem dryRun_foretells [CSharp.Grammar] (files : Workspace) (palette : Palette)
    (options : Options) (status : ExitStatus)
    (returned : (runFix files palette { options with apply := false }).result = .ok status)
    (readable : ∀ session,
      (Session.start files options.sourceRoot options.verbose).1 = .ok session →
      ∀ path ∈ session.project.sourceFiles, ∃ text, Sources.readSource files path = .ok text) :
    ∃ session issues preview, fixWork files options = .ok (session, issues) ∧
      (session.preview issues).1 = .ok preview ∧
      Foretells files (session.batch issues).1.fixes preview.plans
        ((session.batch issues).1.commit session.world).log.applied
        (runFix files palette { options with apply := false })
        (runFix files palette { options with apply := true }) := by
  obtain ⟨session, issues, hwork⟩ := exists_fixWork_of_ok returned
  obtain ⟨first, hstart, hfiles, huncancelled, hsources, _⟩ := fixWork_spec hwork
  have hreadable : session.sources.1.unreadable = [] := by
    obtain ⟨loaded, _, _, rfl⟩ := Session.start_eq_ok_iff.mp hstart
    rw [hsources]
    exact unreadable_ofPaths (readable _ hstart)
  obtain ⟨_, hdry⟩ := fixIssues_dryRun huncancelled hreadable palette options issues
  rw [runFix_of_fixWork hwork] at returned
  rw [runFix_of_fixWork hwork, runFix_of_fixWork hwork, ← hfiles]
  cases hpreview : (session.preview issues).1 with
  | error error =>
      rw [hpreview] at hdry
      cases returned.symm.trans hdry
  | ok preview =>
      rw [hpreview] at hdry
      exact ⟨session, issues, preview, hfiles ▸ hwork, hpreview,
        foretells_of_preview huncancelled hreadable palette options hpreview⟩

/-- A form beside its resource file, which has two blocks of lines to remove. -/
def formProject : Workspace :=
  ⟨[(["Form.cs"], .file "class Form { }".toUTF8.data.toList),
    (["Form.resx"], .file markedTwice.toUTF8.data.toList)], []⟩

theorem dryRun_formProject :
    (runFix formProject ⟨true⟩ {}).result = .ok .failure ∧
      Diff.pathsIn (runFix formProject ⟨true⟩ {}).out = ["./Form.resx"] ∧
      (runFix formProject ⟨true⟩ {}).files = formProject ∧
      (runFix formProject ⟨true⟩ { apply := true }).result = .ok .success ∧
      ∃ path, (runFix formProject ⟨true⟩ { apply := true }).files.read path ≠
        formProject.read path := by
  have hreturned : (runFix formProject ⟨true⟩ {}).result = .ok .failure := by
    decide +kernel
  have hlisted : (Session.start formProject none false).1.toOption.map
      (·.project.sourceFiles) = some ["./Form.cs"] := by decide +kernel
  have htext : Sources.readSource formProject "./Form.cs" = .ok "class Form { }" := by
    decide +kernel
  have hplans : (fixWork formProject {}).toOption.bind (fun work =>
      (work.1.preview work.2).1.toOption.map fun preview => preview.plans.map (·.path)) =
        some ["./Form.resx"] := by
    decide +kernel
  have hreadable : ∀ session, (Session.start formProject none false).1 = .ok session →
      ∀ path ∈ session.project.sourceFiles,
        ∃ text, Sources.readSource formProject path = .ok text := by
    intro session hstart path hpath
    rw [hstart] at hlisted
    rw [show session.project.sourceFiles = ["./Form.cs"] from Option.some.inj hlisted,
      List.mem_singleton] at hpath
    exact ⟨_, hpath ▸ htext⟩
  obtain ⟨session, issues, preview, hwork, hpreview, hforetells⟩ :=
    dryRun_foretells formProject ⟨true⟩ {} .failure hreturned hreadable
  have hpaths : preview.plans.map (·.path) = ["./Form.resx"] := by
    simpa [hwork, hpreview, Except.toOption] using hplans
  have hplain : ∀ path ∈ preview.plans.map (·.path), IsPlain path := by
    rw [hpaths]
    decide
  exact ⟨hreturned, (hforetells.printed (List.forall_mem_map.mp hplain)).trans hpaths,
    hforetells.untouched, hforetells.success, hforetells.failure_iff.mp hreturned⟩

end CommandLine

end ResourceLanguage
