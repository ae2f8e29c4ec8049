import ResourceLanguage.CSharp.Parser
import ResourceLanguage.Fix.Session
import ResourceLanguage.Proofs.Fix.Batch
import ResourceLanguage.Proofs.Session

/-!
Fixing some issues of a project. Every resource file is restored once for each fix that finds it;
the counts tell what has happened to the files, and the order of the issues has no part in it.
-/

namespace ResourceLanguage

open ResourceLanguage.CSharp

/-! ### The fixes for some issues -/

namespace Batch

theorem fixes_ofIssues (sources : List SourceFile) (issues : List LanguageOverride) :
    (ofIssues sources issues).fixes =
      issues.filterMap fun issue => (RestoreFix.ofIssue sources issue).toOption := by
  show (issues.map (RestoreFix.ofIssue sources)).filterMap _ = _
  rw [List.filterMap_map]
  congr 1
  funext issue
  rw [Function.comp_apply]
  cases RestoreFix.ofIssue sources issue with
  | error failure => rfl
  | ok fix => rfl

theorem length_skipped_ofIssues (sources : List SourceFile) (issues : List LanguageOverride) :
    (ofIssues sources issues).skipped.length =
      issues.countP fun issue => !(RestoreFix.ofIssue sources issue).isOk := by
  show ((issues.map (RestoreFix.ofIssue sources)).filterMap _).length = _
  rw [List.filterMap_map, List.length_filterMap_eq_countP]
  congr 1
  funext issue
  rw [Function.comp_apply]
  cases RestoreFix.ofIssue sources issue with
  | error failure => rfl
  | ok fix => rfl

/-- Every issue has a fix or is skipped. -/
theorem length_fixes_add_length_skipped (sources : List SourceFile)
    (issues : List LanguageOverride) :
    (ofIssues sources issues).fixes.length + (ofIssues sources issues).skipped.length =
      issues.length := by
  have hfixes : (ofIssues sources issues).fixes.length =
      issues.countP fun issue => (RestoreFix.ofIssue sources issue).isOk := by
    rw [fixes_ofIssues, List.length_filterMap_eq_countP]
    congr 1
    funext issue
    cases RestoreFix.ofIssue sources issue with
    | error failure => rfl
    | ok fix => rfl
  have hsplit := List.length_eq_countP_add_countP (l := issues) fun issue =>
    (RestoreFix.ofIssue sources issue).isOk
  rw [hfixes, length_skipped_ofIssues]
  simpa using hsplit.symm

/-- The counts of a batch that is committed to some files. -/
def counts (batch : Batch) (files : Workspace) : FixStats where
  processed := batch.fixes.length
  skipped := batch.skipped.length
  changesApplied := (files.changing (targets batch.fixes files)).length
  filesModified := ((files.changing (targets batch.fixes files)).map Prod.snd).toFinset.card
  failed := batch.fixes.countP (·.fails files)

end Batch

namespace Session

variable [Grammar]

theorem batch_fst (session : Session) (issues : List LanguageOverride) :
    (session.batch issues).1 = Batch.ofIssues session.sources.1.files issues := by
  rw [batch]
  cases issues with
  | nil => rfl
  | cons issue issues => rfl

@[simp] theorem files_batch (session : Session) (issues : List LanguageOverride) :
    (session.batch issues).2.files = session.files := by
  rw [batch]
  cases issues with
  | nil => rfl
  | cons issue issues => exact session.files_sources

@[simp] theorem cancellation_batch (session : Session) (issues : List LanguageOverride) :
    (session.batch issues).2.project.cancellation = session.project.cancellation := by
  rw [batch]
  cases issues with
  | nil => rfl
  | cons issue issues => exact session.cancellation_sources

theorem world_batch {session : Session} (uncancelled : session.project.cancellation = .never)
    (issues : List LanguageOverride) :
    (session.batch issues).2.world = ⟨session.files, .never⟩ := by
  rw [world, files_batch, cancellation_batch, uncancelled]

/-- A session that is not cancelled commits its batch to the end. -/
theorem commit_spec (session : Session) (issues : List LanguageOverride)
    (uncancelled : session.project.cancellation = .never) :
    ∃ log, (session.commit issues).1 = .ok ((session.batch issues).1.commitStats log) ∧
      (session.commit issues).2.files =
        session.files.restoreAll (Batch.places (session.batch issues).1.fixes session.files) ∧
      (Batch.DistinctFiles (session.batch issues).1.fixes session.files →
        (session.batch issues).1.commitStats log =
          (session.batch issues).1.counts session.files) := by
  obtain ⟨log, hcommit, happlied, hfailures, hmodified⟩ :=
    (session.batch issues).1.commit_never session.files
  rw [commit]
  dsimp only
  rw [world_batch uncancelled, hcommit]
  refine ⟨log, rfl, rfl, fun distinct => ?_⟩
  simp only [Batch.commitStats, Batch.counts, Batch.stats, happlied, hfailures,
    hmodified distinct]

theorem files_commit (session : Session) (issues : List LanguageOverride)
    (uncancelled : session.project.cancellation = .never) :
    (session.commit issues).2.files =
      session.files.restoreAll (Batch.places (session.batch issues).1.fixes session.files) := by
  obtain ⟨_, _, hfiles, _⟩ := session.commit_spec issues uncancelled
  exact hfiles

theorem stats_commit (session : Session) (issues : List LanguageOverride)
    (uncancelled : session.project.cancellation = .never)
    (distinct : Batch.DistinctFiles (session.batch issues).1.fixes session.files) :
    (session.commit issues).1 = .ok ((session.batch issues).1.counts session.files) := by
  obtain ⟨_, hstats, _, hcounts⟩ := session.commit_spec issues uncancelled
  rw [hstats, hcounts distinct]

end Session

/-! ### What a batch leaves and counts -/

/-- What fixing some issues leaves and counts, when `fixes` are the fixes for the issues. -/
structure CommitOutcome (files : Workspace) (fixes : List RestoreFix) (issueCount : ℕ)
    (after : Workspace) (stats : FixStats) : Prop where
  /-- Paths lead where they led, and no file appears or disappears. -/
  tree : Workspace.SameTree after files
  /-- Each file has been restored once for each fix that finds it. -/
  content : ∀ path place, files.resolve path = .ok place →
    after.read path = (files.read path).map restoreContent^[Batch.restorations fixes files place]
  /-- Every issue has a fix or is skipped. -/
  total : stats.processed + stats.skipped = issueCount
  processed : stats.processed = fixes.length
  /-- The restorations that change a file are counted. -/
  changesApplied : stats.changesApplied =
    ∑ place ∈ (Batch.places fixes files).toFinset,
      (files.content? place).elim 0 (changingSteps (Batch.restorations fixes files place))
  /-- The files that have another content in the end are counted. -/
  filesModified : stats.filesModified =
    ((Batch.places fixes files).toFinset.filter fun place =>
      after.content? place ≠ files.content? place).card
  failed : stats.failed = fixes.countP (·.fails files)
  filesModified_le : stats.filesModified ≤ stats.changesApplied
  changesApplied_le : stats.changesApplied ≤ stats.processed - stats.failed

/-- The counts hang on the fixes, and not on their order. -/
theorem CommitOutcome.eq_of_perm {files after : Workspace} {fixes fixes' : List RestoreFix}
    {issueCount : ℕ} {stats stats' : FixStats}
    (h : CommitOutcome files fixes issueCount after stats)
    (h' : CommitOutcome files fixes' issueCount after stats') (hperm : fixes'.Perm fixes) :
    stats' = stats := by
  have hplaces : (Batch.places fixes' files).toFinset = (Batch.places fixes files).toFinset :=
    List.toFinset_eq_of_perm _ _ (hperm.filterMap _)
  have hrestorations : Batch.restorations fixes' files = Batch.restorations fixes files :=
    funext fun place => hperm.countP_eq _
  have hprocessed : stats'.processed = stats.processed := by
    rw [h'.processed, h.processed, hperm.length_eq]
  have hskipped : stats'.skipped = stats.skipped := by
    have htotal := h.total
    have htotal' := h'.total
    omega
  have hchanges : stats'.changesApplied = stats.changesApplied := by
    rw [h'.changesApplied, h.changesApplied, hplaces, hrestorations]
  have hmodified : stats'.filesModified = stats.filesModified := by
    rw [h'.filesModified, h.filesModified, hplaces]
  have hfailed : stats'.failed = stats.failed := by
    rw [h'.failed, h.failed, hperm.countP_eq]
  cases stats
  cases stats'
  simp_all

namespace Batch

theorem length_filter_fails (fixes : List RestoreFix) (files : Workspace) :
    (fixes.filter (!·.fails files)).length + fixes.countP (·.fails files) = fixes.length := by
  have hsplit := List.length_eq_countP_add_countP (l := fixes) fun fix => fix.fails files
  rw [← List.countP_eq_length_filter, Nat.add_comm]
  simpa using hsplit.symm

/-- At most the fixes that do not fail change something. -/
theorem changesApplied_counts_le (batch : Batch) (files : Workspace) :
    (batch.counts files).changesApplied ≤
      (batch.counts files).processed - (batch.counts files).failed := by
  have hfilter := length_filter_fails batch.fixes files
  have hchanging := (files.changing_sublist
    (targets (batch.fixes.filter (!·.fails files)) files)).length_le
  have htargets : (targets (batch.fixes.filter (!·.fails files)) files).length ≤
      (batch.fixes.filter (!·.fails files)).length := List.length_filterMap_le _ _
  rw [(restoreAll_targets_filter batch.fixes files).2] at hchanging
  -- The changes are those of the fixes that do not fail, at most one for each of them.
  show (files.changing (targets batch.fixes files)).length ≤
    batch.fixes.length - batch.fixes.countP (·.fails files)
  omega

theorem commitOutcome_counts (batch : Batch) (files : Workspace) :
    CommitOutcome files batch.fixes (batch.fixes.length + batch.skipped.length)
      (files.restoreAll (places batch.fixes files)) (batch.counts files) where
  tree := files.sameTree_restoreAll _
  content path place hpath := by
    rw [files.read_restoreAll _ hpath, count_places]
  total := rfl
  processed := rfl
  changesApplied := by
    show (files.changing (targets batch.fixes files)).length = _
    rw [files.length_changing, map_snd_targets]
    simp only [count_places]
  filesModified := congrArg Finset.card (toFinset_changing batch.fixes files)
  failed := rfl
  filesModified_le := by
    show ((files.changing (targets batch.fixes files)).map Prod.snd).toFinset.card ≤
      (files.changing (targets batch.fixes files)).length
    rw [← List.length_map Prod.snd]
    exact List.toFinset_card_le _
  changesApplied_le := batch.changesApplied_counts_le files

/-- A fix that fails leaves the world as it is when its turn comes. -/
theorem run_of_fails (before : List RestoreFix) {fix : RestoreFix} {files : Workspace}
    (hfails : fix.fails files = true) :
    (fix.run .commit (commitAll before {} ⟨files, .never⟩).world).2 =
      (commitAll before {} ⟨files, .never⟩).world := by
  obtain ⟨plans, failures, hcommit, _⟩ := commitAll_never before {} files
  rw [hcommit]
  rw [← fix.fails_restoreAll files ((targets before files).map Prod.snd)] at hfails
  rcases fix.commit_cases (files.restoreAll ((targets before files).map Prod.snd)) with
    ⟨_, failure, hrun⟩ | ⟨hworks, _⟩ | ⟨hworks, _⟩
  · rw [hrun]
  · rw [hfails] at hworks
    cases hworks
  · rw [hfails] at hworks
    cases hworks

end Batch

namespace Session

variable [Grammar]

def fixFails (session : Session) (issue : LanguageOverride) : Bool :=
  (RestoreFix.ofIssue session.sources.1.files issue).toOption.any (·.fails session.files)

theorem fixes_batch_filter (session : Session) (issues : List LanguageOverride) :
    (session.batch (issues.filter (!session.fixFails ·))).1.fixes =
      (session.batch issues).1.fixes.filter (!·.fails session.files) := by
  rw [batch_fst, batch_fst, Batch.fixes_ofIssues, Batch.fixes_ofIssues, List.filter_filterMap,
    List.filterMap_filter]
  congr 1
  funext issue
  rw [fixFails]
  cases RestoreFix.ofIssue session.sources.1.files issue with
  | error failure => rfl
  | ok fix =>
      cases hfails : fix.fails session.files with
      | false => simp [Except.toOption, Option.filter, hfails]
      | true => simp [Except.toOption, Option.filter, hfails]

theorem length_skipped_batch_filter (session : Session) (issues : List LanguageOverride) :
    (session.batch (issues.filter (!session.fixFails ·))).1.skipped.length =
      (session.batch issues).1.skipped.length := by
  rw [batch_fst, batch_fst, Batch.length_skipped_ofIssues, Batch.length_skipped_ofIssues,
    List.countP_filter]
  congr 1
  funext issue
  rw [fixFails]
  cases RestoreFix.ofIssue session.sources.1.files issue with
  | error failure => rfl
  | ok fix => rfl

theorem fixes_batch_perm (session : Session) {issues issues' : List LanguageOverride}
    (h : issues'.Perm issues) :
    (session.batch issues').1.fixes.Perm (session.batch issues).1.fixes := by
  rw [batch_fst, batch_fst, Batch.fixes_ofIssues, Batch.fixes_ofIssues]
  exact h.filterMap _

theorem commitOutcome_batch (session : Session) (issues : List LanguageOverride) :
    CommitOutcome session.files (session.batch issues).1.fixes issues.length
      (session.files.restoreAll (Batch.places (session.batch issues).1.fixes session.files))
      ((session.batch issues).1.counts session.files) := by
  have hlength := Batch.length_fixes_add_length_skipped session.sources.1.files issues
  rw [← batch_fst] at hlength
  rw [← hlength]
  exact (session.batch issues).1.commitOutcome_counts session.files

/-- Without the issues whose fixes fail, the same is done. -/
theorem commit_filter_fails (session : Session) (issues : List LanguageOverride)
    (uncancelled : session.project.cancellation = .never)
    (distinct : Batch.DistinctFiles (session.batch issues).1.fixes session.files) :
    let stats := (session.batch issues).1.counts session.files
    (session.commit (issues.filter (!session.fixFails ·))).1 =
        .ok { stats with processed := stats.processed - stats.failed, failed := 0 } ∧
      (session.commit (issues.filter (!session.fixFails ·))).2.files =
        session.files.restoreAll (Batch.places (session.batch issues).1.fixes session.files) := by
  have hfixes := session.fixes_batch_filter issues
  obtain ⟨hfiles, hchanging⟩ :=
    Batch.restoreAll_targets_filter (session.batch issues).1.fixes session.files
  have hlength := Batch.length_filter_fails (session.batch issues).1.fixes session.files
  have hstats := session.stats_commit (issues.filter (!session.fixFails ·)) uncancelled
    (hfixes ▸ distinct.mono (List.filter_sublist.filterMap _).subset)
  rw [hstats, session.files_commit _ uncancelled, hfixes, ← Batch.map_snd_targets, hfiles,
    Batch.map_snd_targets]
  have hprocessed : ((session.batch issues).1.fixes.filter (!·.fails session.files)).length =
      (session.batch issues).1.fixes.length -
        (session.batch issues).1.fixes.countP (·.fails session.files) := by omega
  have hnone : ((session.batch issues).1.fixes.filter (!·.fails session.files)).countP
      (·.fails session.files) = 0 := by
    rw [List.countP_eq_zero]
    intro fix hfix
    simpa using (List.mem_filter.mp hfix).2
  refine ⟨?_, rfl⟩
  simp only [Batch.counts, hfixes, hchanging, session.length_skipped_batch_filter issues, hnone,
    hprocessed]

/-- The order of the issues makes no difference. -/
theorem commit_perm (session : Session) {issues issues' : List LanguageOverride}
    (h : issues'.Perm issues) (uncancelled : session.project.cancellation = .never)
    (distinct : Batch.DistinctFiles (session.batch issues).1.fixes session.files) :
    (session.commit issues').1 = .ok ((session.batch issues).1.counts session.files) ∧
      (session.commit issues').2.files =
        session.files.restoreAll (Batch.places (session.batch issues).1.fixes session.files) := by
  have hfixes := session.fixes_batch_perm h
  have hplaces : (Batch.places (session.batch issues').1.fixes session.files).Perm
      (Batch.places (session.batch issues).1.fixes session.files) := hfixes.filterMap _
  have hstats := session.stats_commit issues' uncancelled
    (distinct.mono (hfixes.filterMap _).subset)
  have houtcome' := session.commitOutcome_batch issues'
  rw [session.files.restoreAll_perm hplaces, h.length_eq] at houtcome'
  rw [hstats, session.files_commit _ uncancelled, session.files.restoreAll_perm hplaces,
    (session.commitOutcome_batch issues).eq_of_perm houtcome' hfixes]
  exact ⟨rfl, rfl⟩

/-- Fixing some issues comes to its end. A fix that fails changes nothing when its turn comes, and
without all such fixes the same would be done; in any other order of the issues, the files and the
counts would be the same. -/
theorem commit_outcome (session : Session) (issues : List LanguageOverride)
    (uncancelled : session.project.cancellation = .never)
    (distinct : Batch.DistinctFiles (session.batch issues).1.fixes session.files) :
    ∃ stats, (session.commit issues).1 = .ok stats ∧
      CommitOutcome session.files (session.batch issues).1.fixes issues.length
        (session.commit issues).2.files stats ∧
      (∀ before fix rest, (session.batch issues).1.fixes = before ++ fix :: rest →
        fix.fails session.files = true →
        (fix.run .commit (Batch.commitAll before {} session.world).world).2 =
          (Batch.commitAll before {} session.world).world) ∧
      ((session.commit (issues.filter (!session.fixFails ·))).1 =
          .ok { stats with processed := stats.processed - stats.failed, failed := 0 } ∧
        (session.commit (issues.filter (!session.fixFails ·))).2.files =
          (session.commit issues).2.files) ∧
      ∀ issues', issues'.Perm issues →
        (session.commit issues').1 = .ok stats ∧
          (session.commit issues').2.files = (session.commit issues).2.files := by
  have hworld : session.world = ⟨session.files, .never⟩ := by rw [world, uncancelled]
  rw [session.stats_commit issues uncancelled distinct, session.files_commit _ uncancelled, hworld]
  refine ⟨_, rfl, session.commitOutcome_batch issues, ?_, ?_, ?_⟩
  · intro before fix rest _ hfails
    exact Batch.run_of_fails before hfails
  · exact session.commit_filter_fails issues uncancelled distinct
  · intro issues' hperm
    exact session.commit_perm hperm uncancelled distinct

end Session

/-- Two blocks of lines with the marker. -/
def markedTwice : String :=
  "$this.Language\n</metadata>\n$this.Language\n</metadata>\n</root>\n"

/-- A form that is declared in three files. Two of them share a resource file with two blocks of
lines to remove, and the directory of the third one is gone. -/
def sharedForm : Session :=
  let part (file : String) : SourceFile :=
    { path := file
      source := "class Form { }"
      tree := [⟨.type .classType, ⟨0, 14⟩, false, [⟨.other, ⟨6, 10⟩, true, []⟩]⟩] }
  { files := ⟨[(["Form.resx"], .file markedTwice.toUTF8.data.toList)], []⟩
    project :=
      { config := {}, root := ".", sourceFiles := [], resourceFiles := [], verbose := false
        sources := some ⟨[part "a.cs", part "b.cs", part "gone/c.cs"], []⟩ } }

def formIssue (file : String) : LanguageOverride := ⟨⟨file, 1, 7, "class Form { }"⟩, "Form"⟩

theorem Session.commit_sharedForm :
    let issues := ["a.cs", "gone/c.cs", "unparsed.cs", "b.cs"].map formIssue
    Batch.DistinctFiles (sharedForm.batch issues).1.fixes sharedForm.files ∧
      ∃ stats, (sharedForm.commit issues).1 = .ok stats ∧
        stats = ⟨3, 1, 2, 1, 1⟩ ∧
        (sharedForm.commit issues).2.files.readText "Form.resx" = .ok "</root>\n" ∧
        (sharedForm.commit issues.reverse).1 = .ok stats := by
  intro issues
  have hdistinct : Batch.DistinctFiles (sharedForm.batch issues).1.fixes sharedForm.files := by
    decide +kernel
  obtain ⟨stats, hstats, _, _, _, hperm⟩ := sharedForm.commit_outcome issues rfl hdistinct
  have hvalue : (sharedForm.commit issues).1 = .ok ⟨3, 1, 2, 1, 1⟩ := by decide +kernel
  refine ⟨hdistinct, stats, hstats, ?_, by decide +kernel, (hperm _ issues.reverse_perm).1⟩
  rw [hstats, Except.ok.injEq] at hvalue
  exact hvalue

end ResourceLanguage
