import ResourceLanguage.Fix.Restore
import ResourceLanguage.Proofs.Resource.Restoration

/-!
What one fix does to the files. A fix finds its resource file by the names in a directory, which no
fix changes; all that it can do to the files is one restoration at one place.
-/

namespace ResourceLanguage

open ResourceLanguage.Text

/-! ### The place that a fix restores -/

theorem companion?_eq (files : Workspace) (directory : Path) (typeName : String) :
    companion? files directory typeName =
      match files.resolve directory with
      | .error error => .error (.unreadableDirectory directory error)
      | .ok place =>
          if files.hasDirectory place then
            .ok (if files.listsFile place (typeName ++ "." ++ resourceExtension) then
              some (directory.join (typeName ++ "." ++ resourceExtension)) else none)
          else .error (.unreadableDirectory directory .notADirectory) := by
  rw [companion?, Workspace.list_eq]
  cases files.resolve directory with
  | error error => rfl
  | ok place =>
      cases hdirectory : files.hasDirectory place with
      | false =>
          simp only [hdirectory]
          rfl
      | true =>
          simp only [hdirectory, if_true, ← Workspace.any_below]
          rfl

theorem companion?_of_sameTree {after files : Workspace} (h : Workspace.SameTree after files)
    (directory : Path) (typeName : String) :
    companion? after directory typeName = companion? files directory typeName := by
  simp only [companion?_eq, h.resolve_eq, h.hasDirectory_eq, h.listed]

theorem isOk_companion? (files : Workspace) (directory : Path) (typeName : String) :
    (companion? files directory typeName).isOk = (files.list directory).isOk := by
  rw [companion?]
  cases files.list directory with
  | error error => rfl
  | ok entries => rfl

/-- Carrying out the plan for a text with the marker restores the file. -/
theorem applyPlan_commit_of_marked {files : Workspace} {path : Path} {place : Place}
    {text : String} (hplace : files.resolve path = .ok place)
    (htext : files.readText path = .ok text) (hmarker : (textLines text).any hasMarker = true) :
    ¬files.Unmarked place ∧ applyPlan (some (Plan.ofText path text)) .commit files =
      .ok (.applied (Plan.ofText path text), files.restoreAt place) := by
  obtain ⟨place', content, hplace', hcontent, hutf⟩ := Workspace.readText_eq_ok_iff.mp htext
  obtain rfl : place' = place := by
    rw [hplace, Except.ok.injEq] at hplace'
    exact hplace'.symm
  have hmarked : ContentMarked content := ⟨text, hutf, hmarker⟩
  have hnoop : (Plan.ofText path text).isNoop = false := by rw [isNoop_ofText, hmarker]; rfl
  have hwrite : files.writeText (Plan.ofText path text).path (Plan.ofText path text).newText =
      .ok (files.restoreAt place') := by
    rw [newText_ofText, Workspace.restoreAt_of_marked hcontent hmarked,
      restoreContent_of_marked hutf hmarker]
    exact Workspace.writeText_of_content? hplace hcontent _
  refine ⟨fun hunmarked => hunmarked content hcontent hmarked, ?_⟩
  simp only [applyPlan, hnoop, hwrite]
  rfl

namespace RestoreFix

/-- The path of the resource file that a fix finds. -/
def companionPath? (fix : RestoreFix) (files : Workspace) : Option Path :=
  ((companion? files (directoryOf fix.declaringFile) fix.typeName).toOption).join

def place? (fix : RestoreFix) (files : Workspace) : Option Place :=
  (fix.companionPath? files).bind fun path => (files.resolve path).toOption

/-- The resource file that a fix finds, by its path and its place. -/
def target? (fix : RestoreFix) (files : Workspace) : Option (Path × Place) :=
  (fix.companionPath? files).bind fun path => (files.resolve path).toOption.map (path, ·)

theorem target?_eq_some_iff {fix : RestoreFix} {files : Workspace} {path : Path} {place : Place} :
    fix.target? files = some (path, place) ↔
      fix.companionPath? files = some path ∧ files.resolve path = .ok place := by
  rw [target?, Option.bind_eq_some_iff]
  constructor
  · rintro ⟨found, hfound, htarget⟩
    cases hpath : files.resolve found with
    | error error => simp [hpath, Except.toOption] at htarget
    | ok stop =>
        simp only [hpath, Except.toOption, Option.map_some, Option.some_inj, Prod.mk.injEq]
          at htarget
        obtain ⟨rfl, rfl⟩ := htarget
        exact ⟨hfound, hpath⟩
  · rintro ⟨hfound, hpath⟩
    exact ⟨path, hfound, by rw [hpath]; rfl⟩

theorem map_snd_target? (fix : RestoreFix) (files : Workspace) :
    (fix.target? files).map Prod.snd = fix.place? files := by
  rw [target?, place?, Option.map_bind]
  congr 1
  funext path
  rw [Function.comp_apply, Option.map_map]
  exact Option.map_id'

/-- A fix fails when its directory cannot be listed, and when its resource file cannot be read as
text. -/
def fails (fix : RestoreFix) (files : Workspace) : Bool :=
  !(files.list (directoryOf fix.declaringFile)).isOk ||
    (fix.companionPath? files).any fun path => !(files.readText path).isOk

theorem companionPath?_of_sameTree {after files : Workspace}
    (h : Workspace.SameTree after files) (fix : RestoreFix) :
    fix.companionPath? after = fix.companionPath? files := by
  rw [companionPath?, companionPath?, companion?_of_sameTree h]

theorem target?_of_sameTree {after files : Workspace} (h : Workspace.SameTree after files)
    (fix : RestoreFix) : fix.target? after = fix.target? files := by
  simp only [target?, companionPath?_of_sameTree h, h.resolve_eq]

/-- No fix makes another one fail or succeed. -/
theorem fails_restoreAt (fix : RestoreFix) (files : Workspace) (place : Place) :
    fix.fails (files.restoreAt place) = fix.fails files := by
  have htree := files.sameTree_restoreAt place
  have hdirectory : (files.restoreAt place).hasDirectory = files.hasDirectory :=
    funext htree.hasDirectory_eq
  simp only [fails, companionPath?_of_sameTree htree, Workspace.isOk_readText_restoreAt,
    Workspace.isOk_list, htree.resolve_eq, hdirectory]

theorem fails_restoreAll (fix : RestoreFix) (files : Workspace) (places : List Place) :
    fix.fails (files.restoreAll places) = fix.fails files := by
  induction places generalizing files with
  | nil => rfl
  | cons place places ih => rw [Workspace.restoreAll_cons, ih, fails_restoreAt]

/-! ### Running one fix -/

theorem planRestore_cases (fix : RestoreFix) (files : Workspace) :
    (fix.fails files = true ∧
      ∃ failure, planRestore files fix.declaringFile fix.typeName = .error failure) ∨
    (fix.fails files = false ∧ fix.companionPath? files = none ∧
      planRestore files fix.declaringFile fix.typeName = .ok none) ∨
    (fix.fails files = false ∧ ∃ path text, fix.companionPath? files = some path ∧
      files.readText path = .ok text ∧
      planRestore files fix.declaringFile fix.typeName = .ok (some (Plan.ofText path text))) := by
  have hlist := isOk_companion? files (directoryOf fix.declaringFile) fix.typeName
  unfold fails companionPath? planRestore
  rw [← hlist]
  rcases companion? files (directoryOf fix.declaringFile) fix.typeName with failure | _ | path
  · exact .inl ⟨rfl, failure, rfl⟩
  · exact .inr (.inl ⟨rfl, rfl, rfl⟩)
  · cases htext : files.readText path with
    | error error =>
        refine .inl ⟨?_, .unreadableResource path error, ?_⟩
        · change (false || !(files.readText path).isOk) = true
          rw [htext]
          rfl
        · simp only [bind, Except.bind, htext, Except.mapError]
    | ok text =>
        refine .inr (.inr ⟨?_, path, text, rfl, htext, ?_⟩)
        · change (false || !(files.readText path).isOk) = false
          rw [htext]
          rfl
        · simp only [bind, Except.bind, htext, Except.mapError]
          rfl

/-- A fix that looks for the request twice and finds none plans, and carries out what it has
planned. -/
theorem run_of_checks (fix : RestoreFix) (mode : FixMode) (files : Workspace)
    {cancellation later last : Cancellation} (hfirst : cancellation.check = .ok later)
    (hsecond : later.check = .ok last) :
    fix.run mode ⟨files, cancellation⟩ =
      match planRestore files fix.declaringFile fix.typeName with
      | .error failure => (.error (.failed failure), ⟨files, last⟩)
      | .ok plan =>
          match applyPlan plan mode files with
          | .error failure => (.error (.failed failure), ⟨files, last⟩)
          | .ok (outcome, files) => (.ok outcome, ⟨files, last⟩) := by
  simp only [run, toDeferred, DeferredFix.run, hfirst, compute, hsecond, bind, Except.bind]
  cases planRestore files fix.declaringFile fix.typeName with
  | error failure => rfl
  | ok plan =>
      dsimp only
      cases applyPlan plan mode files with
      | error failure => rfl
      | ok result => rfl

/-- A fix that is not cancelled plans, and carries out what it has planned. -/
theorem run_never (fix : RestoreFix) (mode : FixMode) (files : Workspace) :
    fix.run mode ⟨files, .never⟩ =
      match planRestore files fix.declaringFile fix.typeName with
      | .error failure => (.error (.failed failure), ⟨files, .never⟩)
      | .ok plan =>
          match applyPlan plan mode files with
          | .error failure => (.error (.failed failure), ⟨files, .never⟩)
          | .ok (outcome, files) => (.ok outcome, ⟨files, .never⟩) :=
  fix.run_of_checks mode files rfl rfl

/-- A fix that fails has no marked text to restore. -/
theorem unmarked_of_fails {fix : RestoreFix} {files : Workspace} (hfails : fix.fails files = true)
    {target : Path × Place} (htarget : fix.target? files = some target) :
    files.Unmarked target.2 := by
  intro content hcontent ⟨text, htext, _⟩
  obtain ⟨hpath, hplace⟩ := target?_eq_some_iff.mp htarget
  have hread : (files.readText target.1).isOk = true :=
    Workspace.isOk_readText_iff.mpr
      ⟨target.2, content, hplace, hcontent, Option.isSome_iff_exists.mpr ⟨text, htext⟩⟩
  have hlist : (files.list (directoryOf fix.declaringFile)).isOk = true := by
    rw [← isOk_companion? files _ fix.typeName]
    rw [companionPath?] at hpath
    cases hcompanion : companion? files (directoryOf fix.declaringFile) fix.typeName with
    | error failure => simp [hcompanion, Except.toOption] at hpath
    | ok found => rfl
  simp [fails, hpath, hlist, hread] at hfails

/-- What a fix can come to: it fails, it has nothing to do, or it plans to restore a text with the
marker. -/
theorem plan_cases (fix : RestoreFix) (files : Workspace) :
    (fix.fails files = true ∧
      ∀ mode, ∃ failure, fix.run mode ⟨files, .never⟩ =
        (.error (.failed failure), ⟨files, .never⟩)) ∨
    (fix.fails files = false ∧
      (∀ target, fix.target? files = some target → files.Unmarked target.2) ∧
      ∀ mode, fix.run mode ⟨files, .never⟩ = (.ok .noChange, ⟨files, .never⟩)) ∨
    (fix.fails files = false ∧
      ∃ path place text, fix.target? files = some (path, place) ∧
        files.readText path = .ok text ∧ (textLines text).any hasMarker = true ∧
        planRestore files fix.declaringFile fix.typeName = .ok (some (Plan.ofText path text))) := by
  simp only [run_never]
  rcases fix.planRestore_cases files with
    ⟨hfails, failure, hplan⟩ | ⟨hfails, hnone, hplan⟩ | ⟨hfails, path, text, hpath, htext, hplan⟩
  · rw [hplan]
    exact .inl ⟨hfails, fun _ => ⟨failure, rfl⟩⟩
  · rw [hplan]
    refine .inr (.inl ⟨hfails, fun target htarget => ?_, fun _ => rfl⟩)
    rw [target?, hnone] at htarget
    cases htarget
  · obtain ⟨place, content, hplace, _, _⟩ := Workspace.readText_eq_ok_iff.mp htext
    have htarget : fix.target? files = some (path, place) :=
      target?_eq_some_iff.mpr ⟨hpath, hplace⟩
    have hnoop := isNoop_ofText path text
    cases hmarker : (textLines text).any hasMarker with
    | false =>
        rw [hplan]
        refine .inr (.inl ⟨hfails, fun target hsome => ?_, fun mode => ?_⟩)
        · rw [htarget, Option.some_inj] at hsome
          subst hsome
          exact Workspace.unmarked_of_readText htext hplace hmarker
        · rw [hmarker] at hnoop
          simp only [applyPlan, hnoop]
          rfl
    | true => exact .inr (.inr ⟨hfails, path, place, text, htarget, htext, hmarker, hplan⟩)

theorem run_commit_of_marked {fix : RestoreFix} {files : Workspace} {path : Path} {place : Place}
    {text : String} (htarget : fix.target? files = some (path, place))
    (htext : files.readText path = .ok text) (hmarker : (textLines text).any hasMarker = true)
    (hplan : planRestore files fix.declaringFile fix.typeName =
      .ok (some (Plan.ofText path text))) :
    ¬files.Unmarked place ∧
      fix.run .commit ⟨files, .never⟩ =
        (.ok (.applied (Plan.ofText path text)), ⟨files.restoreAt place, .never⟩) := by
  have hplace := (target?_eq_some_iff.mp htarget).2
  obtain ⟨hmarked, hwritten⟩ := applyPlan_commit_of_marked hplace htext hmarker
  refine ⟨hmarked, ?_⟩
  rw [run_never, hplan]
  simp only [hwritten]

/-- What a fix does when it is committed: it fails and changes nothing, it finds no marker, or it
restores its resource file. -/
theorem commit_cases (fix : RestoreFix) (files : Workspace) :
    (fix.fails files = true ∧
      ∃ failure, fix.run .commit ⟨files, .never⟩ = (.error (.failed failure), ⟨files, .never⟩)) ∨
    (fix.fails files = false ∧
      (∀ target, fix.target? files = some target → files.Unmarked target.2) ∧
      fix.run .commit ⟨files, .never⟩ = (.ok .noChange, ⟨files, .never⟩)) ∨
    (fix.fails files = false ∧
      ∃ plan place, fix.target? files = some (plan.path, place) ∧ ¬files.Unmarked place ∧
        fix.run .commit ⟨files, .never⟩ =
          (.ok (.applied plan), ⟨files.restoreAt place, .never⟩)) := by
  rcases fix.plan_cases files with ⟨hfails, hrun⟩ | ⟨hfails, hunmarked, hrun⟩ |
    ⟨hfails, path, place, text, htarget, htext, hmarker, hplan⟩
  · exact .inl ⟨hfails, hrun .commit⟩
  · exact .inr (.inl ⟨hfails, hunmarked, hrun .commit⟩)
  · obtain ⟨hmarked, hrun⟩ := run_commit_of_marked htarget htext hmarker hplan
    exact .inr (.inr ⟨hfails, _, place, htarget, hmarked, hrun⟩)

end RestoreFix

end ResourceLanguage
