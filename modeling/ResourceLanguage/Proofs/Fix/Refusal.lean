import ResourceLanguage.Proofs.Fix.Interleaving

/-!
What a batch of fixes tells of a request to cancel. Each fix looks for the request twice, before it
begins and once more by itself, so of the fixes of a batch a front part is executed, two checks for
each. A fix that finds the request by itself has failed, and it is the next fix that ends the batch:
when there is no next one, the batch is a success and the request is not told of.
-/

namespace ResourceLanguage

/-! ### One fix and the request -/

theorem ne_cancelled_of_companion? {files : Workspace} {directory : Path} {typeName : String}
    {failure : Failure} (h : companion? files directory typeName = .error failure)
    (cause : Cancelled) : failure ≠ .cancelled cause := by
  rintro rfl
  rw [companion?] at h
  cases hlist : files.list directory with
  | error error => simp [hlist, bind, Except.bind, Except.mapError] at h
  | ok entries => simp [hlist, bind, Except.bind, Except.mapError, pure, Except.pure] at h

theorem ne_cancelled_of_planRestore {files : Workspace} {declaringFile : Path} {typeName : String}
    {failure : Failure} (h : planRestore files declaringFile typeName = .error failure)
    (cause : Cancelled) : failure ≠ .cancelled cause := by
  rw [planRestore] at h
  cases hcompanion : companion? files (directoryOf declaringFile) typeName with
  | error found =>
      obtain rfl : found = failure := by simpa [hcompanion, bind, Except.bind] using h
      exact ne_cancelled_of_companion? hcompanion cause
  | ok path? =>
      rintro rfl
      cases path? with
      | none => simp [hcompanion, bind, Except.bind, pure, Except.pure] at h
      | some path =>
          cases htext : files.readText path <;>
            simp [hcompanion, htext, bind, Except.bind, Except.mapError, pure, Except.pure] at h

theorem ne_cancelled_of_applyPlan {plan : Option Plan} {mode : FixMode} {files : Workspace}
    {failure : Failure} (h : applyPlan plan mode files = .error failure) (cause : Cancelled) :
    failure ≠ .cancelled cause := by
  rintro rfl
  unfold applyPlan at h
  split at h
  · cases h
  · split at h
    · cases h
    · split at h
      · cases h
      · split at h <;> cases h

/-- A result that does not come from a request to cancel. -/
def Unrefused (result : Except FixError FixOutcome) : Prop :=
  ∀ cause, result ≠ .error (.cancelled cause) ∧ result ≠ .error (.failed (.cancelled cause))

namespace RestoreFix

variable (fix : RestoreFix) (mode : FixMode) (files : Workspace)

/-- Where no request arrives, none is the reason for which a fix fails. -/
theorem exists_run_never :
    ∃ result after, fix.run mode ⟨files, .never⟩ = (result, ⟨after, .never⟩) ∧
      Unrefused result := by
  rw [run_never]
  cases hplan : planRestore files fix.declaringFile fix.typeName with
  | error failure =>
      have hfailure := ne_cancelled_of_planRestore hplan
      exact ⟨_, _, rfl, fun cause => ⟨by simp, by simpa using hfailure cause⟩⟩
  | ok plan =>
      dsimp only
      cases happly : applyPlan plan mode files with
      | error failure =>
          have hfailure := ne_cancelled_of_applyPlan happly
          exact ⟨_, _, rfl, fun cause => ⟨by simp, by simpa using hfailure cause⟩⟩
      | ok result => exact ⟨_, _, rfl, fun cause => ⟨by simp, by simp⟩⟩

/-- A fix that finds no request does what it does where none arrives. -/
theorem run_of_two_passing {result : Except FixError FixOutcome} {after : Workspace}
    (h : fix.run mode ⟨files, .never⟩ = (result, ⟨after, .never⟩)) (passing : ℕ) :
    fix.run mode ⟨files, ⟨some (passing + 2)⟩⟩ = (result, ⟨after, ⟨some passing⟩⟩) := by
  have hfirst : Cancellation.check ⟨some (passing + 2)⟩ = .ok ⟨some (passing + 1)⟩ := rfl
  have hsecond : Cancellation.check ⟨some (passing + 1)⟩ = .ok ⟨some passing⟩ := rfl
  rw [run_never] at h
  rw [fix.run_of_checks mode files hfirst hsecond]
  cases hplan : planRestore files fix.declaringFile fix.typeName with
  | error failure =>
      rw [hplan] at h
      cases h
      rfl
  | ok plan =>
      rw [hplan] at h
      dsimp only at h ⊢
      cases happly : applyPlan plan mode files with
      | error failure =>
          rw [happly] at h
          cases h
          rfl
      | ok result =>
          rw [happly] at h
          cases h
          rfl

end RestoreFix

namespace Batch

/-! ### The fixes that are executed -/

/-- The fixes of a batch that are executed: those that no request keeps from their work, neither
before they begin nor when they look for it by themselves. -/
def executed : List RestoreFix → World → List RestoreFix
  | [], _ => []
  | fix :: fixes, world =>
      match fix.run .commit world with
      | (.error (.cancelled _), _) => []
      | (.error (.failed (.cancelled _)), world) => executed fixes world
      | (_, world) => fix :: executed fixes world

section Cons

variable {fix : RestoreFix} {fixes : List RestoreFix} {world after : World}
  {result : Except FixError FixOutcome}

theorem executed_cons_of_unrefused (hrun : fix.run .commit world = (result, after))
    (h : Unrefused result) : executed (fix :: fixes) world = fix :: executed fixes after := by
  rw [executed, hrun]
  split
  · rename_i cause _ heq
    exact absurd (congrArg Prod.fst heq) (h cause).1
  · rename_i cause _ heq
    exact absurd (congrArg Prod.fst heq) (h cause).2
  · rename_i heq
    cases heq
    rfl

theorem commitAll_cons_of_unrefused (log : CommitLog)
    (hrun : fix.run .commit world = (result, after)) (h : Unrefused result) :
    commitAll (fix :: fixes) log world = commitAll fixes (log.note result) after := by
  rcases result with error | outcome
  · cases error with
    | cancelled cause => exact absurd rfl (h cause).1
    | failed failure => exact commitAll_cons_of_failed fixes log hrun
    | missing argument =>
        rw [commitAll, hrun]
        rfl
  · exact commitAll_cons_of_ok fixes log hrun

end Cons

theorem executed_never (fixes : List RestoreFix) (files : Workspace) :
    executed fixes ⟨files, .never⟩ = fixes := by
  induction fixes generalizing files with
  | nil => rfl
  | cons fix fixes ih =>
      obtain ⟨result, after, hrun, hresult⟩ := fix.exists_run_never .commit files
      rw [executed_cons_of_unrefused hrun hresult, ih]

theorem executed_of_none_passing (fixes : List RestoreFix) (files : Workspace) :
    executed fixes ⟨files, ⟨some 0⟩⟩ = [] := by
  cases fixes with
  | nil => rfl
  | cons fix fixes => rfl

theorem executed_of_one_passing (fixes : List RestoreFix) (files : Workspace) :
    executed fixes ⟨files, ⟨some 1⟩⟩ = [] := by
  cases fixes with
  | nil => rfl
  | cons fix fixes => exact executed_of_none_passing fixes files

/-- Fixes whose checks all pass are executed. -/
theorem executed_append_of_passing (front rest : List RestoreFix) (files : Workspace)
    (passing : ℕ) :
    ∃ after, executed (front ++ rest) ⟨files, ⟨some (2 * front.length + passing)⟩⟩ =
      front ++ executed rest ⟨after, ⟨some passing⟩⟩ := by
  induction front generalizing files with
  | nil => exact ⟨files, by simp⟩
  | cons fix front ih =>
      obtain ⟨result, after, hrun, hresult⟩ := fix.exists_run_never .commit files
      obtain ⟨last, hlast⟩ := ih after
      have hchecks : 2 * (fix :: front).length + passing = 2 * front.length + passing + 2 := by
        rw [List.length_cons]
        omega
      refine ⟨last, ?_⟩
      rw [hchecks, List.cons_append, List.cons_append, ← hlast]
      exact executed_cons_of_unrefused (fix.run_of_two_passing .commit files hrun _) hresult

/-- Fixes whose checks all pass do what they do where no request arrives. -/
theorem commitAll_append_of_passing (front rest : List RestoreFix) (log : CommitLog)
    (files : Workspace) (passing : ℕ) :
    commitAll (front ++ rest) log ⟨files, ⟨some (2 * front.length + passing)⟩⟩ =
      commitAll rest (commitAll front log ⟨files, .never⟩).log
        ⟨(commitAll front log ⟨files, .never⟩).world.files, ⟨some passing⟩⟩ := by
  induction front generalizing log files with
  | nil =>
      rw [List.nil_append, List.length_nil, Nat.mul_zero, Nat.zero_add]
      rfl
  | cons fix front ih =>
      obtain ⟨result, after, hrun, hresult⟩ := fix.exists_run_never .commit files
      have hchecks : 2 * (fix :: front).length + passing = 2 * front.length + passing + 2 := by
        rw [List.length_cons]
        omega
      rw [hchecks, List.cons_append, commitAll_cons_of_unrefused log hrun hresult, ← ih]
      exact commitAll_cons_of_unrefused log (fix.run_of_two_passing .commit files hrun _) hresult

/-! ### What the batch tells -/

/-- Of fixes with too few passing checks, one finds the request, before it begins or by itself. -/
theorem exists_append_of_passing {fixes : List RestoreFix} {passing : ℕ}
    (h : passing < 2 * fixes.length) :
    ∃ front fix rest, fixes = front ++ fix :: rest ∧
      (passing = 2 * front.length ∨ passing = 2 * front.length + 1) := by
  have hlt : passing / 2 < fixes.length := by omega
  refine ⟨fixes.take (passing / 2), fixes[passing / 2], fixes.drop (passing / 2 + 1), ?_, ?_⟩
  · rw [← List.drop_eq_getElem_cons hlt, List.take_append_drop]
  · rw [List.length_take]
    omega

/-- A fix that finds the request is not executed, and neither are those after it. -/
theorem executed_of_passing (front rest : List RestoreFix) (files : Workspace) {passing : ℕ}
    (h : passing = 2 * front.length ∨ passing = 2 * front.length + 1) :
    executed (front ++ rest) ⟨files, ⟨some passing⟩⟩ = front := by
  rcases h with rfl | rfl
  · obtain ⟨after, hafter⟩ := executed_append_of_passing front rest files 0
    rw [Nat.add_zero, executed_of_none_passing, List.append_nil] at hafter
    exact hafter
  · obtain ⟨after, hafter⟩ := executed_append_of_passing front rest files 1
    rw [executed_of_one_passing, List.append_nil] at hafter
    exact hafter

theorem executed_of_enough_passing {fixes : List RestoreFix} {passing : ℕ}
    (h : 2 * fixes.length ≤ passing) (files : Workspace) :
    executed fixes ⟨files, ⟨some passing⟩⟩ = fixes := by
  obtain ⟨left, rfl⟩ := Nat.exists_eq_add_of_le h
  obtain ⟨after, hexecuted⟩ := executed_append_of_passing fixes [] files left
  rw [List.append_nil] at hexecuted
  exact hexecuted.trans (List.append_nil fixes)

/-- Two passing checks let one more fix be executed. -/
theorem executed_eq_take (fixes : List RestoreFix) (files : Workspace) (passing : ℕ) :
    executed fixes ⟨files, ⟨some passing⟩⟩ = fixes.take (passing / 2) := by
  by_cases henough : 2 * fixes.length ≤ passing
  · have hlength : fixes.length ≤ passing / 2 := by omega
    rw [executed_of_enough_passing henough, List.take_of_length_le hlength]
  · obtain ⟨front, fix, rest, rfl, hpassing⟩ := exists_append_of_passing (not_le.mp henough)
    have hlength : passing / 2 = front.length := by omega
    rw [executed_of_passing front (fix :: rest) files hpassing, hlength, List.take_left]

theorem executed_eq_elim (fixes : List RestoreFix) (files : Workspace)
    (cancellation : Cancellation) :
    executed fixes ⟨files, cancellation⟩ =
      cancellation.remaining.elim fixes fun passing => fixes.take (passing / 2) := by
  obtain ⟨_ | passing⟩ := cancellation
  · exact executed_never fixes files
  · exact executed_eq_take fixes files passing

theorem length_failures_never (fixes : List RestoreFix) (files : Workspace) :
    (commitAll fixes {} ⟨files, .never⟩).log.failures.length = fixes.countP (·.fails files) := by
  obtain ⟨plans, failures, hcommit, -, hfailures⟩ := commitAll_never fixes {} files
  rw [hcommit, ← hfailures]
  rfl

/-- The request arrives between the two checks of the last of some fixes, so that the very last of
all their checks is the only one that finds it. -/
def MeetsLast (fixes : List RestoreFix) (cancellation : Cancellation) : Prop :=
  ∃ passing, cancellation.remaining = some passing ∧ passing + 1 = 2 * fixes.length

theorem not_meetsLast_never (fixes : List RestoreFix) : ¬MeetsLast fixes .never := by
  rintro ⟨passing, hpassing, -⟩
  cases hpassing

theorem meetsLast_iff {fixes : List RestoreFix} {passing : ℕ} :
    MeetsLast fixes ⟨some passing⟩ ↔ passing + 1 = 2 * fixes.length := by
  simp [MeetsLast]

section Refused

variable (front : List RestoreFix) (fix : RestoreFix) (rest : List RestoreFix) (log : CommitLog)
  (files : Workspace)

/-- A fix that is refused before it begins ends the batch. -/
theorem stopped_of_refused_before :
    (commitAll (front ++ fix :: rest) log ⟨files, ⟨some (2 * front.length)⟩⟩).stopped =
      some (.cancelled ⟨⟩) := by
  rw [← Nat.add_zero (2 * front.length), commitAll_append_of_passing]
  rfl

/-- A fix that is refused by itself is noted as a failure, and the batch goes on. -/
theorem commitAll_of_refused_within :
    commitAll (front ++ fix :: rest) log ⟨files, ⟨some (2 * front.length + 1)⟩⟩ =
      commitAll rest
        ((commitAll front log ⟨files, .never⟩).log.note (.error (.failed (.cancelled ⟨⟩))))
        ⟨(commitAll front log ⟨files, .never⟩).world.files, ⟨some 0⟩⟩ := by
  rw [commitAll_append_of_passing]
  rfl

end Refused

/-- How a batch ends: all fixes are executed, or the last one is refused by itself and noted as a
failure, or a fix is refused before it begins. -/
theorem commitAll_cases (fixes : List RestoreFix) (files : Workspace)
    (cancellation : Cancellation) :
    let executed := executed fixes ⟨files, cancellation⟩
    let result := commitAll fixes {} ⟨files, cancellation⟩
    (¬MeetsLast fixes cancellation ∧ executed = fixes ∧ result.stopped = none ∧
      result.log.failures.length = executed.countP (·.fails files)) ∨
    (MeetsLast fixes cancellation ∧ executed ≠ fixes ∧ result.stopped = none ∧
      result.log.failures.length = executed.countP (·.fails files) + 1) ∨
    (¬MeetsLast fixes cancellation ∧ executed ≠ fixes ∧
      result.stopped = some (.cancelled ⟨⟩)) := by
  obtain ⟨_ | passing⟩ := cancellation
  · have hexecuted := executed_never fixes files
    obtain ⟨plans, failures, hcommit, -⟩ := commitAll_never fixes {} files
    refine .inl ⟨not_meetsLast_never fixes, hexecuted, congrArg CommitResult.stopped hcommit, ?_⟩
    exact (length_failures_never fixes files).trans (congrArg _ hexecuted.symm)
  · simp only [meetsLast_iff]
    by_cases henough : 2 * fixes.length ≤ passing
    · rw [executed_of_enough_passing henough]
      obtain ⟨left, rfl⟩ := Nat.exists_eq_add_of_le henough
      have hcommit := commitAll_append_of_passing fixes [] {} files left
      rw [List.append_nil] at hcommit
      refine .inl ⟨by omega, rfl, ?_, ?_⟩
      · rw [hcommit]
        rfl
      · rw [hcommit, ← length_failures_never fixes files]
        rfl
    · obtain ⟨front, fix, rest, rfl, hpassing⟩ := exists_append_of_passing (not_le.mp henough)
      have hne : front ≠ front ++ fix :: rest := by simp
      rw [executed_of_passing front (fix :: rest) files hpassing, List.length_append,
        List.length_cons]
      rcases hpassing with rfl | rfl
      · exact .inr (.inr ⟨by omega, hne, stopped_of_refused_before front fix rest {} files⟩)
      · rw [commitAll_of_refused_within]
        -- The fix has been noted as failed. It takes a next one to end the batch.
        cases rest with
        | nil =>
            refine .inr (.inl ⟨by rw [List.length_nil]; omega, hne, rfl, ?_⟩)
            rw [← length_failures_never front files]
            exact List.length_append
        | cons next rest =>
            refine .inr (.inr ⟨?_, hne, rfl⟩)
            rw [List.length_cons]
            omega

/-- What the result of a batch is to tell of a request to cancel: it is a cancellation exactly when
some fix has not been executed, and the fixes that it counts as failed have been executed. -/
structure TellsOfCancellation (fixes executed : List RestoreFix) (files : Workspace)
    (result : Except FixError FixStats) : Prop where
  error_iff : (∃ error, result = .error error ∧ error.isCancelled = true) ↔ executed ≠ fixes
  failed_eq : ∀ stats, result = .ok stats → stats.failed = executed.countP (·.fails files)

end Batch

namespace Session

section Stopped

variable [CSharp.Grammar] {session : Session} {issues : List LanguageOverride}
  {cancellation : Cancellation}

theorem commit_of_stopped {error : FixError}
    (h : ((session.batch issues).1.commit ⟨session.files, cancellation⟩).stopped = some error) :
    ((session.setCancellation cancellation).commit issues).1 = .error error := by
  rw [commit]
  dsimp only
  rw [world_batch_setCancellation, batch_fst_setCancellation, h]

theorem commit_of_not_stopped
    (h : ((session.batch issues).1.commit ⟨session.files, cancellation⟩).stopped = none) :
    ((session.setCancellation cancellation).commit issues).1 =
      .ok ((session.batch issues).1.commitStats
        ((session.batch issues).1.commit ⟨session.files, cancellation⟩).log) := by
  rw [commit]
  dsimp only
  rw [world_batch_setCancellation, batch_fst_setCancellation, h]

end Stopped

/-- A batch tells of a request to cancel, unless the request arrives between the two checks of the
last fix. That fix is then not executed, and it is counted as failed in a success. -/
theorem commit_tells_of_cancellation_iff [CSharp.Grammar] (session : Session)
    (issues : List LanguageOverride) (cancellation : Cancellation) :
    let fixes := (session.batch issues).1.fixes
    let executed := Batch.executed fixes ⟨session.files, cancellation⟩
    let result := ((session.setCancellation cancellation).commit issues).1
    (Batch.TellsOfCancellation fixes executed session.files result ↔
      ¬Batch.MeetsLast fixes cancellation) ∧
    executed = cancellation.remaining.elim fixes (fun passing => fixes.take (passing / 2)) ∧
    (∀ error, result = .error error → error = .cancelled ⟨⟩ ∧ executed ≠ fixes) ∧
    (Batch.MeetsLast fixes cancellation → executed ≠ fixes ∧
      ∃ stats, result = .ok stats ∧
        stats.failed = executed.countP (·.fails session.files) + 1) := by
  intro fixes executed result
  have hfront := Batch.executed_eq_elim fixes session.files cancellation
  rcases Batch.commitAll_cases fixes session.files cancellation with
    ⟨hmeets, hexecuted, hstopped, hfailures⟩ | ⟨hmeets, hexecuted, hstopped, hfailures⟩ |
    ⟨hmeets, hexecuted, hstopped⟩
  · have hresult : result = .ok _ := commit_of_not_stopped hstopped
    refine ⟨iff_of_true ⟨?_, ?_⟩ hmeets, hfront, ?_, fun h => absurd h hmeets⟩
    · exact iff_of_false (by simp [hresult]) (not_not.mpr hexecuted)
    · intro stats hstats
      cases hresult.symm.trans hstats
      exact hfailures
    · intro error herror
      cases hresult.symm.trans herror
  · have hresult : result = .ok _ := commit_of_not_stopped hstopped
    refine ⟨iff_of_false ?_ (not_not.mpr hmeets), hfront, ?_,
      fun _ => ⟨hexecuted, _, hresult, hfailures⟩⟩
    · rintro ⟨htold, -⟩
      obtain ⟨error, herror, -⟩ := htold.mpr hexecuted
      cases hresult.symm.trans herror
    · intro error herror
      cases hresult.symm.trans herror
  · have hresult : result = .error (.cancelled ⟨⟩) := commit_of_stopped hstopped
    refine ⟨iff_of_true ⟨?_, ?_⟩ hmeets, hfront, ?_, fun h => absurd h hmeets⟩
    · exact iff_of_true ⟨_, hresult, rfl⟩ hexecuted
    · intro stats hstats
      cases hresult.symm.trans hstats
    · intro error herror
      cases hresult.symm.trans herror
      exact ⟨rfl, hexecuted⟩

/-- Of two fixes, the first or the second finds the request by itself. -/
theorem commit_tells_of_cancellation_iff_sharedForm :
    let issues := ["a.cs", "b.cs"].map formIssue
    let fixes := (sharedForm.batch issues).1.fixes
    let executed passing := Batch.executed fixes ⟨sharedForm.files, ⟨some passing⟩⟩
    let result passing := ((sharedForm.setCancellation ⟨some passing⟩).commit issues).1
    Batch.TellsOfCancellation fixes (executed 1) sharedForm.files (result 1) ∧
      Batch.MeetsLast fixes ⟨some 3⟩ ∧ executed 3 = [⟨"a.cs", "Form"⟩] ∧
      ∃ stats, result 3 = .ok stats ∧ stats.failed = 1 := by
  intro issues fixes executed result
  have hfixes : fixes = [⟨"a.cs", "Form"⟩, ⟨"b.cs", "Form"⟩] := by decide +kernel
  have hfirst : ¬Batch.MeetsLast fixes ⟨some 1⟩ := by
    rw [Batch.meetsLast_iff, hfixes]
    decide
  have hlast : Batch.MeetsLast fixes ⟨some 3⟩ := by
    rw [Batch.meetsLast_iff, hfixes]
    rfl
  obtain ⟨-, hexecuted, -, hmet⟩ := sharedForm.commit_tells_of_cancellation_iff issues ⟨some 3⟩
  obtain ⟨-, stats, hstats, hfailed⟩ := hmet hlast
  have hfront : executed 3 = [⟨"a.cs", "Form"⟩] := by
    rw [Option.elim_some] at hexecuted
    exact hexecuted.trans (congrArg (List.take 1) hfixes)
  refine ⟨(sharedForm.commit_tells_of_cancellation_iff issues ⟨some 1⟩).1.mpr hfirst, hlast, hfront,
    stats, hstats, ?_⟩
  have hworks : [(⟨"a.cs", "Form"⟩ : RestoreFix)].countP (·.fails sharedForm.files) = 0 := by
    decide +kernel
  exact hfailed.trans ((congrArg (·.countP (·.fails sharedForm.files) + 1) hfront).trans
    (congrArg (· + 1) hworks))

/-- The only fix of a batch finds the request by itself. It has not been executed, and the batch is
a success with one failed fix. -/
theorem refused_fix_counted_as_failed :
    let issues := [formIssue "a.cs"]
    let fixes := (sharedForm.batch issues).1.fixes
    let executed := Batch.executed fixes ⟨sharedForm.files, ⟨some 1⟩⟩
    let result := ((sharedForm.setCancellation ⟨some 1⟩).commit issues).1
    fixes = [⟨"a.cs", "Form"⟩] ∧ executed = [] ∧ result = .ok ⟨1, 0, 0, 0, 1⟩ ∧
      ¬Batch.TellsOfCancellation fixes executed sharedForm.files result := by
  intro issues fixes executed result
  have hfixes : fixes = [⟨"a.cs", "Form"⟩] := by decide +kernel
  have hexecuted : executed = [] := Batch.executed_of_one_passing fixes sharedForm.files
  have hresult : result = .ok ⟨1, 0, 0, 0, 1⟩ := by decide +kernel
  refine ⟨hfixes, hexecuted, hresult, ?_⟩
  rintro ⟨-, hfailed⟩
  have hcount := hfailed _ hresult
  rw [hexecuted] at hcount
  cases hcount

end Session

end ResourceLanguage
