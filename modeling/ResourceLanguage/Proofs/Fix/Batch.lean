import ResourceLanguage.Fix.Batch
import ResourceLanguage.Proofs.Fix.Target

/-!
Running the fixes of a batch one after the other. Where each fix leads and whether it fails can be
told from the files before the batch; a committed batch is a run of restorations.
-/

namespace ResourceLanguage

/-! ### Keeping the first of each key -/

section KeepFirst

variable {α κ : Type} [DecidableEq κ]

/-- Adds an element at the end, unless there is one with its key. -/
def keepFirst (key : α → κ) (kept : List α) (x : α) : List α :=
  if key x ∈ kept.map key then kept else kept ++ [x]

theorem ite_eq_keepFirst {key : α → κ} {kept : List α} {x : α} {found : Bool}
    (h : found = true ↔ key x ∈ kept.map key) :
    (if found then kept else kept ++ [x]) = keepFirst key kept x := by
  by_cases hkey : key x ∈ kept.map key
  · rw [keepFirst, if_pos hkey, if_pos (h.mpr hkey)]
  · rw [keepFirst, if_neg hkey, if_neg (h.not.mpr hkey)]

theorem mem_map_foldl_keepFirst {key : α → κ} (xs kept : List α) (k : κ) :
    k ∈ (xs.foldl (keepFirst key) kept).map key ↔ k ∈ kept.map key ∨ k ∈ xs.map key := by
  induction xs generalizing kept with
  | nil => simp
  | cons x xs ih =>
      rw [List.foldl_cons, ih, keepFirst]
      split
      · rename_i hkept
        rw [List.map_cons, List.mem_cons]
        constructor
        · rintro (h | h)
          · exact .inl h
          · exact .inr (.inr h)
        · rintro (h | rfl | h)
          · exact .inl h
          · exact .inl hkept
          · exact .inr h
      · simp [or_assoc]

theorem nodup_map_foldl_keepFirst {key : α → κ} (xs : List α) {kept : List α}
    (hkept : (kept.map key).Nodup) : ((xs.foldl (keepFirst key) kept).map key).Nodup := by
  induction xs generalizing kept with
  | nil => exact hkept
  | cons x xs ih =>
      apply ih
      rw [keepFirst]
      split
      · exact hkept
      · rename_i hnew
        rw [List.map_append, List.nodup_append]
        refine ⟨hkept, List.nodup_singleton _, fun a ha b hb => ?_⟩
        rw [List.map_singleton, List.mem_singleton] at hb
        rintro rfl
        exact hnew (hb ▸ ha)

theorem mem_of_mem_foldl_keepFirst {key : α → κ} {xs kept : List α} {x : α}
    (h : x ∈ xs.foldl (keepFirst key) kept) : x ∈ kept ∨ x ∈ xs := by
  induction xs generalizing kept with
  | nil => exact .inl h
  | cons y xs ih =>
      rcases ih h with h | h
      · rw [keepFirst] at h
        split at h
        · exact .inl h
        · rcases List.mem_append.mp h with h | h
          · exact .inl h
          · exact .inr (List.mem_cons.mpr (.inl (List.mem_singleton.mp h)))
      · exact .inr (List.mem_cons_of_mem y h)

/-- Two keys that tell the same elements apart give the same number of keys. -/
theorem card_toFinset_map_eq {ι : Type} [DecidableEq ι] {key : α → κ} {key' : α → ι}
    {xs : List α} (h : ∀ x ∈ xs, ∀ y ∈ xs, key x = key y ↔ key' x = key' y) :
    (xs.map key).toFinset.card = (xs.map key').toFinset.card := by
  induction xs with
  | nil => rfl
  | cons x xs ih =>
      have hmem : key x ∈ xs.map key ↔ key' x ∈ xs.map key' := by
        rw [List.mem_map, List.mem_map]
        refine exists_congr fun y => and_congr_right fun hy => ?_
        exact h y (List.mem_cons_of_mem x hy) x List.mem_cons_self
      have htail := ih fun y hy z hz =>
        h y (List.mem_cons_of_mem x hy) z (List.mem_cons_of_mem x hz)
      simp only [List.map_cons, List.toFinset_cons, Finset.card_insert_eq_ite, List.mem_toFinset,
        hmem, htail]

end KeepFirst

namespace Batch

theorem samePath_iff {path path' : Path} :
    samePath path path' = true ↔ path.components = path'.components := beq_iff_eq

theorem modified_eq (log : CommitLog) :
    log.modified = (log.applied.map (·.path)).foldl (keepFirst Path.components) [] := by
  unfold CommitLog.modified
  congr 1
  funext paths path
  apply ite_eq_keepFirst
  rw [List.any_eq_true, List.mem_map]
  refine exists_congr fun other => and_congr_right fun _ => ?_
  rw [samePath_iff, eq_comm]

/-- The files that were changed are counted by the components of their paths. -/
theorem length_modified (log : CommitLog) :
    log.modified.length = (log.applied.map fun plan => plan.path.components).toFinset.card := by
  have hnodup : (log.modified.map Path.components).Nodup := by
    rw [modified_eq]
    exact nodup_map_foldl_keepFirst _ .nil
  have hmem : (log.modified.map Path.components).toFinset =
      (log.applied.map fun plan => plan.path.components).toFinset := by
    ext key
    rw [List.mem_toFinset, modified_eq, mem_map_foldl_keepFirst, List.mem_toFinset, List.map_map]
    simp
  rw [← List.length_map Path.components, ← List.toFinset_card_of_nodup hnodup, hmem]

/-! ### Committing -/

/-- The resource files that fixes find, in the order of the fixes. -/
def targets (fixes : List RestoreFix) (files : Workspace) : List (Path × Place) :=
  fixes.filterMap (·.target? files)

def places (fixes : List RestoreFix) (files : Workspace) : List Place :=
  fixes.filterMap (·.place? files)

theorem map_snd_targets (fixes : List RestoreFix) (files : Workspace) :
    (targets fixes files).map Prod.snd = places fixes files := by
  rw [targets, places, List.map_filterMap]
  congr 1
  funext fix
  exact fix.map_snd_target? files

theorem targets_of_sameTree {after files : Workspace} (h : Workspace.SameTree after files)
    (fixes : List RestoreFix) : targets fixes after = targets fixes files := by
  simp only [targets, RestoreFix.target?_of_sameTree h]

theorem targets_cons_of_some {fix : RestoreFix} {files : Workspace} {target : Path × Place}
    (h : fix.target? files = some target) (fixes : List RestoreFix) :
    targets (fix :: fixes) files = target :: targets fixes files :=
  List.filterMap_cons_some h

/-- A fix without a marked text to restore makes no difference. -/
theorem restoreAll_targets_cons {fix : RestoreFix} {files : Workspace}
    (h : ∀ target, fix.target? files = some target → files.Unmarked target.2)
    (fixes : List RestoreFix) :
    files.restoreAll ((targets (fix :: fixes) files).map Prod.snd) =
        files.restoreAll ((targets fixes files).map Prod.snd) ∧
      files.changing (targets (fix :: fixes) files) = files.changing (targets fixes files) := by
  cases htarget : fix.target? files with
  | none =>
      have hcons : targets (fix :: fixes) files = targets fixes files :=
        List.filterMap_cons_none htarget
      rw [hcons]
      exact ⟨rfl, rfl⟩
  | some target =>
      have hsame := Workspace.restoreAt_of_unmarked (h target htarget)
      rw [targets_cons_of_some htarget, List.map_cons, Workspace.restoreAll_cons, hsame,
        Workspace.changing, if_pos hsame]
      exact ⟨rfl, rfl⟩

/-- A batch that is not cancelled runs to its end. It restores the resource files that its fixes
find, logs the changes among the restorations, and notes as many failures as fixes fail. -/
theorem commitAll_never (fixes : List RestoreFix) (log : CommitLog) (files : Workspace) :
    ∃ plans failures,
      commitAll fixes log ⟨files, .never⟩ =
        { log := ⟨log.applied ++ plans, log.failures ++ failures⟩
          stopped := none
          world := ⟨files.restoreAll ((targets fixes files).map Prod.snd), .never⟩ } ∧
      plans.map (·.path) = (files.changing (targets fixes files)).map Prod.fst ∧
      failures.length = fixes.countP (·.fails files) := by
  induction fixes generalizing log files with
  | nil => exact ⟨[], [], by simp [commitAll, targets], rfl, rfl⟩
  | cons fix fixes ih =>
      rw [commitAll]
      rcases fix.commit_cases files with ⟨hfails, failure, hrun⟩ |
        ⟨hfails, hunmarked, hrun⟩ | ⟨hfails, plan, place, htarget, hmarked, hrun⟩
      · obtain ⟨hfiles, hchanging⟩ :=
          restoreAll_targets_cons (fun _ => RestoreFix.unmarked_of_fails hfails) fixes
        obtain ⟨plans, failures, hrest, hplans, hfailures⟩ :=
          ih { log with failures := log.failures ++ [.failed failure] } files
        refine ⟨plans, .failed failure :: failures, ?_, ?_, ?_⟩
        · rw [hrun, hfiles]
          simpa [FixError.isCancelled] using hrest
        · rw [hchanging, hplans]
        · rw [List.length_cons, hfailures, List.countP_cons, if_pos hfails]
      · obtain ⟨hfiles, hchanging⟩ := restoreAll_targets_cons hunmarked fixes
        obtain ⟨plans, failures, hrest, hplans, hfailures⟩ := ih log files
        refine ⟨plans, failures, ?_, ?_, ?_⟩
        · rw [hrun, hfiles]
          exact hrest
        · rw [hchanging, hplans]
        · rw [hfailures, List.countP_cons, hfails]
          rfl
      · -- The other fixes find the same files after this one, and the same of them fail.
        obtain ⟨plans, failures, hrest, hplans, hfailures⟩ :=
          ih { log with applied := log.applied ++ [plan] } (files.restoreAt place)
        rw [targets_of_sameTree (files.sameTree_restoreAt place)] at hrest hplans
        refine ⟨plan :: plans, failures, ?_, ?_, ?_⟩
        · rw [hrun, targets_cons_of_some htarget]
          simpa using hrest
        · rw [targets_cons_of_some htarget, Workspace.changing,
            if_neg fun heq => hmarked (Workspace.restoreAt_eq_self_iff.mp heq), List.map_cons,
            List.map_cons, hplans]
        · simp only [RestoreFix.fails_restoreAt] at hfailures
          rw [hfailures, List.countP_cons, hfails]
          rfl

/-- Fixes that fail make no difference to the others. -/
theorem restoreAll_targets_filter (fixes : List RestoreFix) (files : Workspace) :
    files.restoreAll ((targets (fixes.filter (!·.fails files)) files).map Prod.snd) =
        files.restoreAll ((targets fixes files).map Prod.snd) ∧
      files.changing (targets (fixes.filter (!·.fails files)) files) =
        files.changing (targets fixes files) := by
  induction fixes generalizing files with
  | nil => exact ⟨rfl, rfl⟩
  | cons fix fixes ih =>
      cases hfails : fix.fails files with
      | true =>
          obtain ⟨hfiles, hchanging⟩ :=
            restoreAll_targets_cons (fun _ => RestoreFix.unmarked_of_fails hfails) fixes
          rw [List.filter_cons_of_neg (by simp [hfails]), hfiles, hchanging]
          exact ih files
      | false =>
          rw [List.filter_cons_of_pos (by simp [hfails])]
          cases htarget : fix.target? files with
          | none =>
              have hcons (rest : List RestoreFix) :
                  targets (fix :: rest) files = targets rest files :=
                List.filterMap_cons_none htarget
              rw [hcons, hcons]
              exact ih files
          | some target =>
              obtain ⟨hfiles, hchanging⟩ := ih (files.restoreAt target.2)
              simp only [RestoreFix.fails_restoreAt,
                targets_of_sameTree (files.sameTree_restoreAt target.2)] at hfiles hchanging
              simp only [targets_cons_of_some htarget, List.map_cons, Workspace.restoreAll_cons,
                Workspace.changing]
              refine ⟨hfiles, ?_⟩
              split
              · rename_i hsame
                rw [hsame] at hchanging
                exact hchanging
              · rw [hchanging]

/-! ### Counting -/

/-- The number of fixes that find the resource file at a place. -/
def restorations (fixes : List RestoreFix) (files : Workspace) (place : Place) : ℕ :=
  fixes.countP fun fix => fix.place? files = some place

theorem count_places (fixes : List RestoreFix) (files : Workspace) (place : Place) :
    (places fixes files).count place = restorations fixes files place := by
  rw [places, restorations, List.count, List.countP_filterMap]
  congr 1
  funext fix
  cases fix.place? files with
  | none => rfl
  | some found => simp [Bool.beq_eq_decide_eq]

/-- Different paths of resource files lead to different files. -/
def DistinctFiles (fixes : List RestoreFix) (files : Workspace) : Prop :=
  ∀ target ∈ targets fixes files, ∀ target' ∈ targets fixes files,
    target.2 = target'.2 → target.1.components = target'.1.components

instance (fixes : List RestoreFix) (files : Workspace) : Decidable (DistinctFiles fixes files) :=
  inferInstanceAs (Decidable (∀ target ∈ targets fixes files, ∀ target' ∈ targets fixes files,
    target.2 = target'.2 → target.1.components = target'.1.components))

theorem DistinctFiles.mono {fixes fixes' : List RestoreFix} {files : Workspace}
    (h : DistinctFiles fixes files) (hsub : targets fixes' files ⊆ targets fixes files) :
    DistinctFiles fixes' files :=
  fun target htarget target' htarget' => h target (hsub htarget) target' (hsub htarget')

theorem resolve_of_mem_targets {fixes : List RestoreFix} {files : Workspace}
    {target : Path × Place} (h : target ∈ targets fixes files) :
    files.resolve target.1 = .ok target.2 := by
  obtain ⟨fix, _, htarget⟩ := List.mem_filterMap.mp h
  exact (RestoreFix.target?_eq_some_iff.mp htarget).2

/-- Counting changed files by their paths or by their places is the same. -/
theorem card_components_changing {fixes : List RestoreFix} {files : Workspace}
    (distinct : DistinctFiles fixes files) :
    ((files.changing (targets fixes files)).map fun target => target.1.components).toFinset.card =
      ((files.changing (targets fixes files)).map Prod.snd).toFinset.card := by
  have hsub := (files.changing_sublist (targets fixes files)).subset
  apply card_toFinset_map_eq
  intro target htarget target' htarget'
  constructor
  · intro hcomponents
    exact Workspace.eq_of_components_eq hcomponents (resolve_of_mem_targets (hsub htarget))
      (resolve_of_mem_targets (hsub htarget'))
  · exact distinct target (hsub htarget) target' (hsub htarget')

theorem toFinset_changing (fixes : List RestoreFix) (files : Workspace) :
    ((files.changing (targets fixes files)).map Prod.snd).toFinset =
      (places fixes files).toFinset.filter fun place =>
        (files.restoreAll (places fixes files)).content? place ≠ files.content? place := by
  ext place
  rw [List.mem_toFinset, Finset.mem_filter, List.mem_toFinset, ← map_snd_targets,
    ← Workspace.mem_changing_iff]
  constructor
  · intro hplace
    refine ⟨?_, hplace⟩
    exact ((files.changing_sublist (targets fixes files)).map Prod.snd).subset hplace
  · exact fun h => h.2

/-- The counts of the changes that a batch makes. -/
theorem commit_never (batch : Batch) (files : Workspace) :
    ∃ log, batch.commit ⟨files, .never⟩ =
        { log, stopped := none, world := ⟨files.restoreAll (places batch.fixes files), .never⟩ } ∧
      log.applied.length = (files.changing (targets batch.fixes files)).length ∧
      log.failures.length = batch.fixes.countP (·.fails files) ∧
      (DistinctFiles batch.fixes files → log.modified.length =
        ((files.changing (targets batch.fixes files)).map Prod.snd).toFinset.card) := by
  obtain ⟨plans, failures, hcommit, hplans, hfailures⟩ := commitAll_never batch.fixes {} files
  refine ⟨⟨plans, failures⟩, ?_, ?_, hfailures, fun distinct => ?_⟩
  · rw [commit, hcommit, map_snd_targets]
    rfl
  · rw [← List.length_map (·.path), hplans, List.length_map]
  · rw [length_modified, ← card_components_changing distinct]
    have hcomponents := congrArg (List.map Path.components) hplans
    rw [List.map_map, List.map_map] at hcomponents
    exact congrArg (fun keys => keys.toFinset.card) hcomponents

end Batch

end ResourceLanguage
