import ResourceLanguage.Proofs.Fix.Commit

/-!
What a preview shows of a commit. A preview plans each file from its text before the batch, while a
commit restores the file once for each fix that finds it. The two agree on a file with one fix, and
on a file with one block of lines to remove.
-/

namespace ResourceLanguage

open ResourceLanguage.Text

/-! ### Planned changes -/

namespace RestoreFix

theorem preview_cases (fix : RestoreFix) (files : Workspace) :
    (fix.fails files = true ∧
      ∃ failure, fix.run .preview ⟨files, .never⟩ = (.error (.failed failure), ⟨files, .never⟩)) ∨
    (fix.fails files = false ∧
      (∀ target, fix.target? files = some target → files.Unmarked target.2) ∧
      fix.run .preview ⟨files, .never⟩ = (.ok .noChange, ⟨files, .never⟩)) ∨
    (fix.fails files = false ∧
      ∃ path place text, fix.target? files = some (path, place) ∧
        files.readText path = .ok text ∧ (textLines text).any hasMarker = true ∧
        fix.run .preview ⟨files, .never⟩ =
          (.ok (.preview (Plan.ofText path text)), ⟨files, .never⟩)) := by
  rcases fix.plan_cases files with ⟨hfails, hrun⟩ | ⟨hfails, hunmarked, hrun⟩ |
    ⟨hfails, path, place, text, htarget, htext, hmarker, hplan⟩
  · exact .inl ⟨hfails, hrun .preview⟩
  · exact .inr (.inl ⟨hfails, hunmarked, hrun .preview⟩)
  · refine .inr (.inr ⟨hfails, path, place, text, htarget, htext, hmarker, ?_⟩)
    have hnoop : (Plan.ofText path text).isNoop = false := by rw [isNoop_ofText, hmarker]; rfl
    rw [run_never, hplan]
    simp only [applyPlan, hnoop]
    rfl

end RestoreFix

/-- The plans for what some fixes find: each plan is for the marked text of a resource file, and
each such file has a plan. -/
structure PlansFor (fixes : List RestoreFix) (files : Workspace) (plans : List Plan) : Prop where
  sound : ∀ plan ∈ plans, ∃ place text, (plan.path, place) ∈ Batch.targets fixes files ∧
    files.readText plan.path = .ok text ∧ (textLines text).any hasMarker = true ∧
    plan = Plan.ofText plan.path text
  complete : ∀ target ∈ Batch.targets fixes files, ¬files.Unmarked target.2 →
    ∃ plan ∈ plans, plan.path.components = target.1.components

namespace PlansFor

theorem of_unmarked {fix : RestoreFix} {fixes : List RestoreFix} {files : Workspace}
    {plans : List Plan} (h : PlansFor fixes files plans)
    (hunmarked : ∀ target, fix.target? files = some target → files.Unmarked target.2) :
    PlansFor (fix :: fixes) files plans where
  sound plan hplan := by
    obtain ⟨place, text, hmem, hrest⟩ := h.sound plan hplan
    exact ⟨place, text, ((List.sublist_cons_self fix fixes).filterMap _).subset hmem, hrest⟩
  complete target htarget hmarked := by
    obtain ⟨found, hfound, hsome⟩ := List.mem_filterMap.mp htarget
    rcases List.mem_cons.mp hfound with rfl | hfound
    · exact absurd (hunmarked target hsome) hmarked
    · exact h.complete target (List.mem_filterMap.mpr ⟨found, hfound, hsome⟩) hmarked

theorem cons {fix : RestoreFix} {fixes : List RestoreFix} {files : Workspace}
    {plans : List Plan} (h : PlansFor fixes files plans) {path : Path} {place : Place}
    {text : String} (htarget : fix.target? files = some (path, place))
    (htext : files.readText path = .ok text) (hmarker : (textLines text).any hasMarker = true) :
    PlansFor (fix :: fixes) files (Plan.ofText path text :: plans) := by
  have hcons : Batch.targets (fix :: fixes) files = (path, place) :: Batch.targets fixes files :=
    Batch.targets_cons_of_some htarget fixes
  refine ⟨fun plan hplan => ?_, fun target hmem hmarked => ?_⟩
  · rw [hcons]
    rcases List.mem_cons.mp hplan with rfl | hplan
    · exact ⟨place, text, List.mem_cons_self, htext, hmarker, rfl⟩
    · obtain ⟨place', text', hmem, hrest⟩ := h.sound plan hplan
      exact ⟨place', text', List.mem_cons_of_mem _ hmem, hrest⟩
  · rw [hcons] at hmem
    rcases List.mem_cons.mp hmem with rfl | hmem
    · exact ⟨_, List.mem_cons_self, rfl⟩
    · obtain ⟨plan, hplan, hpath⟩ := h.complete target hmem hmarked
      exact ⟨plan, List.mem_cons_of_mem _ hplan, hpath⟩

end PlansFor

namespace Batch

/-- A preview that succeeds has planned for every fix. -/
theorem plansFor_previewAll {fixes : List RestoreFix} {files : Workspace} {plans : List Plan}
    (h : (previewAll fixes ⟨files, .never⟩).1 = .ok plans) : PlansFor fixes files plans := by
  induction fixes generalizing plans with
  | nil =>
      rw [previewAll, Except.ok.injEq] at h
      subst h
      exact ⟨nofun, nofun⟩
  | cons fix fixes ih =>
      rw [previewAll] at h
      rcases fix.preview_cases files with ⟨_, failure, hrun⟩ | ⟨_, hunmarked, hrun⟩ |
        ⟨_, path, place, text, htarget, htext, hmarker, hrun⟩
      · rw [hrun] at h
        cases h
      · rw [hrun] at h
        cases hrest : (previewAll fixes ⟨files, .never⟩).1 with
        | error error => simp [hrest, Except.map] at h
        | ok rest =>
            obtain rfl : rest = plans := by simpa [hrest, Except.map] using h
            exact (ih hrest).of_unmarked hunmarked
      · rw [hrun] at h
        cases hrest : (previewAll fixes ⟨files, .never⟩).1 with
        | error error => simp [hrest, Except.map] at h
        | ok rest =>
            obtain rfl : Plan.ofText path text :: rest = plans := by
              simpa [hrest, Except.map] using h
            exact (ih hrest).cons htarget htext hmarker

theorem distinctPlans_perm (plans : List Plan) :
    (distinctPlans plans).Perm (plans.foldl (keepFirst (·.path.components)) []) := by
  have hfold : plans.foldl (fun kept plan =>
      if kept.any fun other => samePath other.path plan.path then kept else kept ++ [plan]) [] =
      plans.foldl (keepFirst (·.path.components)) [] := by
    congr 1
    funext kept plan
    apply ite_eq_keepFirst
    simp only [List.any_eq_true, List.mem_map, samePath_iff]
  rw [distinctPlans, hfold]
  exact List.mergeSort_perm _ _

/-- Of plans for the same file one is enough. -/
theorem plansFor_distinctPlans {fixes : List RestoreFix} {files : Workspace} {plans : List Plan}
    (h : PlansFor fixes files plans) : PlansFor fixes files (distinctPlans plans) where
  sound plan hplan := by
    rw [(distinctPlans_perm plans).mem_iff] at hplan
    rcases mem_of_mem_foldl_keepFirst hplan with hnil | hplan
    · cases hnil
    · exact h.sound plan hplan
  complete target htarget hmarked := by
    obtain ⟨plan, hplan, hpath⟩ := h.complete target htarget hmarked
    have hkey : plan.path.components ∈
        (plans.foldl (keepFirst (·.path.components)) []).map (·.path.components) :=
      (mem_map_foldl_keepFirst plans [] _).mpr (.inr (List.mem_map_of_mem hplan))
    obtain ⟨kept, hkept, hcomponents⟩ := List.mem_map.mp hkey
    exact ⟨kept, (distinctPlans_perm plans).mem_iff.mpr hkept, hcomponents.trans hpath⟩

theorem plansFor_preview {batch : Batch} {files : Workspace} {preview : Preview}
    (h : (batch.preview ⟨files, .never⟩).1 = .ok preview) :
    PlansFor batch.fixes files preview.plans := by
  rw [Batch.preview] at h
  cases hplans : (previewAll batch.fixes ⟨files, .never⟩).1 with
  | error error => simp [hplans, Except.map] at h
  | ok plans =>
      simp only [hplans, Except.map, Except.ok.injEq] at h
      subst h
      exact plansFor_distinctPlans (plansFor_previewAll hplans)

end Batch

/-! ### Planned and written texts -/

/-- After some restorations a file has the text of the first one exactly when there was one only,
or when the first one left no marker. -/
theorem readText_restoreAll_iff {files : Workspace} {places : List Place} {path : Path}
    {place : Place} {text : String} (hpath : files.resolve path = .ok place)
    (htext : files.readText path = .ok text) (hmarker : (textLines text).any hasMarker = true)
    (hplace : place ∈ places) :
    (files.restoreAll places).readText path = .ok (restoredText text) ↔
      places.count place = 1 ∨ (textLines (restoredText text)).any hasMarker = false := by
  obtain ⟨place', content, hpath', hcontent, hutf⟩ := Workspace.readText_eq_ok_iff.mp htext
  obtain rfl : place = place' := by
    rw [hpath, Except.ok.injEq] at hpath'
    exact hpath'
  obtain ⟨n, hn⟩ : ∃ n, places.count place = n + 1 :=
    Nat.exists_eq_succ_of_ne_zero (List.count_pos_iff.mpr hplace).ne'
  have hafter : (files.restoreAll places).content? place =
      some (restoreContent^[n] (restoredText text).toUTF8.data.toList) := by
    rw [Workspace.content?_restoreAll, hcontent, hn, Option.map_some, Function.iterate_succ_apply,
      restoreContent_of_marked hutf hmarker]
  -- The first restoration gives the planned text; what counts is whether the others change it.
  have hsame : (files.restoreAll places).readText path = .ok (restoredText text) ↔
      restoreContent^[n] (restoredText text).toUTF8.data.toList =
        (restoredText text).toUTF8.data.toList := by
    rw [Workspace.readText_eq_ok_iff, (files.sameTree_restoreAll places).resolve_eq]
    constructor
    · rintro ⟨place', content', hpath', hcontent', hutf'⟩
      rw [hpath, Except.ok.injEq] at hpath'
      subst hpath'
      rw [hafter, Option.some_inj] at hcontent'
      rw [hcontent']
      exact eq_toUTF8_of_fromUTF8? hutf'
    · intro heq
      exact ⟨place, _, hpath, hafter, by rw [heq, fromUTF8?_toUTF8]⟩
  rw [hsame, iterate_restoreContent_eq_self_iff, restoreContent_eq_self_iff,
    contentMarked_toUTF8_iff, hn, Bool.not_eq_true, Nat.add_eq_right]

theorem PlansFor.resolve_eq {fixes : List RestoreFix} {files : Workspace} {plans : List Plan}
    (h : PlansFor fixes files plans) {target : Path × Place}
    (htarget : target ∈ Batch.targets fixes files) (hmarked : ¬files.Unmarked target.2) :
    ∃ plan ∈ plans, files.resolve plan.path = .ok target.2 := by
  obtain ⟨plan, hplan, hcomponents⟩ := h.complete target htarget hmarked
  obtain ⟨place, text, hmem, _⟩ := h.sound plan hplan
  have hplace := Batch.resolve_of_mem_targets hmem
  rw [Workspace.eq_of_components_eq hcomponents hplace (Batch.resolve_of_mem_targets htarget)]
    at hplace
  exact ⟨plan, hplan, hplace⟩

/-- Files without a plan are left as they are. -/
theorem PlansFor.read_restoreAll {fixes : List RestoreFix} {files : Workspace}
    {plans : List Plan} (h : PlansFor fixes files plans) {path : Path}
    (hpath : ∀ plan ∈ plans, files.resolve plan.path ≠ files.resolve path) :
    (files.restoreAll (Batch.places fixes files)).read path = files.read path := by
  cases hresolve : files.resolve path with
  | error error =>
      rw [Workspace.read_eq, Workspace.read_eq, (files.sameTree_restoreAll _).resolve_eq, hresolve]
  | ok place =>
      rw [files.read_restoreAll _ hresolve]
      by_cases hunmarked : files.Unmarked place
      · cases hread : files.read path with
        | error error => rfl
        | ok content =>
            have hcontent := Workspace.content?_of_read hresolve hread
            have hfixed := restoreContent_of_not_marked (hunmarked content hcontent)
            exact congrArg Except.ok (Function.iterate_fixed hfixed _)
      · -- A fix that finds the marked text would have planned for it.
        have hnone : place ∉ Batch.places fixes files := by
          intro hmem
          rw [← Batch.map_snd_targets] at hmem
          obtain ⟨target, htarget, rfl⟩ := List.mem_map.mp hmem
          obtain ⟨plan, hplan, hsame⟩ := h.resolve_eq htarget hunmarked
          exact hpath plan hplan (hsame.trans hresolve.symm)
        rw [List.count_eq_zero.mpr hnone]
        cases files.read path with
        | error error => rfl
        | ok content => rfl

namespace Session

/-- A commit leaves what its preview has not shown as it is. A file that was shown gets the text
that was shown exactly when one fix only finds it, or when the shown text has no marker left. -/
theorem commit_matches_preview_iff [CSharp.Grammar] (session : Session)
    (issues : List LanguageOverride) (preview : Batch.Preview)
    (uncancelled : session.project.cancellation = .never)
    (previewed : (session.preview issues).1 = .ok preview) :
    (∃ stats, (session.commit issues).1 = .ok stats) ∧
    (∀ path, (∀ plan ∈ preview.plans,
        session.files.resolve plan.path ≠ session.files.resolve path) →
      (session.commit issues).2.files.read path = session.files.read path) ∧
    ∀ plan ∈ preview.plans, ∃ place, session.files.resolve plan.path = .ok place ∧
      ((session.commit issues).2.files.readText plan.path = .ok plan.newText ↔
        Batch.restorations (session.batch issues).1.fixes session.files place = 1 ∨
          (textLines plan.newText).any hasMarker = false) := by
  have hplans : PlansFor (session.batch issues).1.fixes session.files preview.plans := by
    apply Batch.plansFor_preview
    rw [← world_batch uncancelled issues]
    exact previewed
  obtain ⟨log, hstats, hfiles, _⟩ := session.commit_spec issues uncancelled
  rw [hfiles]
  refine ⟨⟨_, hstats⟩, fun path => hplans.read_restoreAll, fun plan hplan => ?_⟩
  obtain ⟨place, text, hmem, htext, hmarker, hofText⟩ := hplans.sound plan hplan
  have hplace := Batch.resolve_of_mem_targets hmem
  refine ⟨place, hplace, ?_⟩
  have hmem' : place ∈ Batch.places (session.batch issues).1.fixes session.files := by
    rw [← Batch.map_snd_targets]
    exact List.mem_map_of_mem hmem
  have hnew : plan.newText = restoredText text := by rw [hofText, newText_ofText]
  rw [hnew, readText_restoreAll_iff hplace htext hmarker hmem', Batch.count_places]

/-- What is shown for the form in some files beside its resource file. -/
def formPreview (processed : ℕ) : Batch.Preview :=
  { plans := [Plan.ofText "./Form.resx" markedTwice]
    stats := { processed, filesModified := 1 } }

/-- One fix writes what was shown, and leaves the second block of lines. -/
theorem commit_matches_preview_oneFix :
    let issues := [formIssue "a.cs"]
    (sharedForm.preview issues).1 = .ok (formPreview 1) ∧
      (sharedForm.commit issues).2.files.readText "./Form.resx" =
        .ok "$this.Language\n</metadata>\n</root>\n" := by
  intro issues
  have hpreview : (sharedForm.preview issues).1 = .ok (formPreview 1) := by decide +kernel
  obtain ⟨_, _, hplans⟩ :=
    sharedForm.commit_matches_preview_iff issues (formPreview 1) rfl hpreview
  obtain ⟨place, hplace, hiff⟩ := hplans _ List.mem_cons_self
  have hresolve : sharedForm.files.resolve "./Form.resx" = .ok ["Form.resx"] := by decide +kernel
  obtain rfl : ["Form.resx"] = place := Except.ok.inj (hresolve.symm.trans hplace)
  have hone : Batch.restorations (sharedForm.batch issues).1.fixes sharedForm.files
      ["Form.resx"] = 1 := by decide +kernel
  have htext : (Plan.ofText "./Form.resx" markedTwice).newText =
      "$this.Language\n</metadata>\n</root>\n" := by decide +kernel
  rw [← htext]
  exact ⟨hpreview, hiff.mpr (.inl hone)⟩

/-- Two fixes that share a resource file remove both blocks of lines, where the preview shows the
first one only. -/
theorem commit_beyond_preview :
    let issues := [formIssue "a.cs", formIssue "b.cs"]
    (sharedForm.preview issues).1 = .ok (formPreview 2) ∧
      (formPreview 2).plans.map (fun plan => (plan.path, plan.newText)) =
        [("./Form.resx", "$this.Language\n</metadata>\n</root>\n")] ∧
      (sharedForm.commit issues).2.files.readText "./Form.resx" = .ok "</root>\n" := by
  decide +kernel

end Session

end ResourceLanguage
