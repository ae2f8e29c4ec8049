import ResourceLanguage.Proofs.Fix.Detection
import ResourceLanguage.Proofs.Resource.Terminators

/-!
Planning again after a plan has been carried out. The file then holds the lines that were planned,
and a plan made from it begins with them.
-/

namespace ResourceLanguage

open ResourceLanguage.Text

/-- A restored file is read as the text that was planned. -/
theorem Workspace.readText_restoreAt {files : Workspace} {path : Path} {place : Place}
    {text : String} (hplace : files.resolve path = .ok place)
    (htext : files.readText path = .ok text) (hmarker : (textLines text).any hasMarker = true) :
    (files.restoreAt place).readText path = .ok (restoredText text) := by
  obtain ⟨place', content, hplace', hcontent, hutf⟩ := readText_eq_ok_iff.mp htext
  obtain rfl : place' = place := by
    rw [hplace, Except.ok.injEq] at hplace'
    exact hplace'.symm
  refine readText_eq_ok_iff.mpr ⟨place', restoreContent content, ?_, ?_, ?_⟩
  · rw [(files.sameTree_restoreAt place').resolve_eq, hplace]
  · rw [content?_restoreAt, if_pos rfl, hcontent, Option.map_some]
  · rw [restoreContent_of_marked hutf hmarker, fromUTF8?_toUTF8]

/-- After a plan has been carried out, the file of the type is found under the same path. It holds
the text of the plan, unless the plan had nothing to change. -/
theorem exists_commit_ofText {files : Workspace} {declaringFile path : Path}
    {typeName text : String}
    (hcompanion : companion? files (directoryOf declaringFile) typeName = .ok (some path))
    (htext : files.readText path = .ok text) :
    ∃ outcome after, applyPlan (some (Plan.ofText path text)) .commit files =
        .ok (outcome, after) ∧
      companion? after (directoryOf declaringFile) typeName = .ok (some path) ∧
      if (Plan.ofText path text).isNoop then after = files
      else after.readText path = .ok (Plan.ofText path text).newText := by
  obtain ⟨place, -, hplace, -, -⟩ := Workspace.readText_eq_ok_iff.mp htext
  have hnoop := isNoop_ofText path text
  cases hmarker : (textLines text).any hasMarker with
  | false =>
      rw [hmarker] at hnoop
      refine ⟨.noChange, files, ?_, hcompanion, by rw [hnoop]; rfl⟩
      simp only [applyPlan, hnoop]
      rfl
  | true =>
      rw [hmarker] at hnoop
      refine ⟨_, files.restoreAt place, (applyPlan_commit_of_marked hplace htext hmarker).2, ?_, ?_⟩
      · rw [companion?_of_sameTree (files.sameTree_restoreAt place), hcompanion]
      · rw [hnoop]
        exact Workspace.readText_restoreAt hplace htext hmarker

/-- What a plan writes reads back as what was planned, for every text that has a carriage return
before a line feed or does not end with a carriage return: its lines are the planned ones, and if
there are any, its terminator is the one of the plan. A plan made after the first one has been
carried out therefore begins with the lines that the first one ended with. -/
theorem newText_reads_back (path : Path) {text : String}
    (h : occursIn ['\r', '\n'] text.toList = true ∨ text.toList.getLast? ≠ some '\r') :
    textLines (Plan.ofText path text).newText = (Plan.ofText path text).newLines ∧
    ((Plan.ofText path text).newLines ≠ [] →
      LineEnding.detect (Plan.ofText path text).newText = (Plan.ofText path text).lineEnding) ∧
    ∀ (files : Workspace) (declaringFile : Path) (typeName : String),
      companion? files (directoryOf declaringFile) typeName = .ok (some path) →
      files.readText path = .ok text →
      ∃ plan outcome after again,
        planRestore files declaringFile typeName = .ok (some plan) ∧
        plan = Plan.ofText path text ∧
        applyPlan (some plan) .commit files = .ok (outcome, after) ∧
        planRestore after declaringFile typeName = .ok (some again) ∧
        again.path = plan.path ∧ again.originalLines = plan.newLines ∧
        (plan.newLines ≠ [] → again.lineEnding = plan.lineEnding) := by
  obtain ⟨hlines, hending⟩ := newText_ofText_reads_back path h
  refine ⟨hlines, hending, fun files declaringFile typeName hcompanion htext => ?_⟩
  obtain ⟨outcome, after, happly, hagain, hafter⟩ := exists_commit_ofText hcompanion htext
  have hplan := planRestore_of_companion hcompanion htext
  cases hnoop : (Plan.ofText path text).isNoop with
  | true =>
      rw [hnoop] at hafter
      obtain rfl : after = files := hafter
      exact ⟨_, outcome, after, _, hplan, rfl, happly, hplan, rfl, beq_iff_eq.mp hnoop,
        fun _ => rfl⟩
  | false =>
      rw [hnoop] at hafter
      refine ⟨_, outcome, after, _, hplan, rfl, happly, planRestore_of_companion hagain hafter, rfl,
        ?_, fun hne => ?_⟩
      · rw [originalLines_ofText, hlines]
      · rw [lineEnding_ofText, hending hne]

/-- Mixed terminators, a doubled carriage return, and a last line that ends with a carriage return
alone. -/
theorem newText_reads_back_mixed :
    let text := "a\r\r\n$this.Language\n</metadata>\nb\nc\r"
    let plan := Plan.ofText "./A.resx" text
    let files : Workspace :=
      ⟨[(["A.cs"], .file []), (["A.resx"], .file text.toUTF8.data.toList)], []⟩
    occursIn ['\r', '\n'] text.toList = true ∧ plan.newLines = ["a\r", "b", "c\r"] ∧
      textLines plan.newText = ["a\r", "b", "c\r"] ∧
      LineEnding.detect plan.newText = .carriageReturnLineFeed ∧
      ∃ outcome after again, applyPlan (some plan) .commit files = .ok (outcome, after) ∧
        planRestore after "A.cs" "A" = .ok (some again) ∧
        again.originalLines = ["a\r", "b", "c\r"] := by
  intro text plan files
  have hoccurs : occursIn ['\r', '\n'] text.toList = true := by decide +kernel
  have hnew : plan.newLines = ["a\r", "b", "c\r"] := by decide +kernel
  have hending : plan.lineEnding = .carriageReturnLineFeed := by decide +kernel
  have hcompanion : companion? files (directoryOf "A.cs") "A" = .ok (some "./A.resx") := by
    decide +kernel
  have htext : files.readText "./A.resx" = .ok text := by
    refine Workspace.readText_eq_ok_iff.mpr ⟨["A.resx"], text.toUTF8.data.toList, ?_, ?_,
      fromUTF8?_toUTF8 text⟩
    · decide +kernel
    · decide +kernel
  obtain ⟨hlines, hdetect, hagain⟩ := newText_reads_back "./A.resx" (.inl hoccurs)
  obtain ⟨_, outcome, after, again, -, rfl, happly, hreplan, -, horiginal, -⟩ :=
    hagain files "A.cs" "A" hcompanion htext
  refine ⟨hoccurs, hnew, hlines.trans hnew, ?_, outcome, after, again, happly, hreplan,
    horiginal.trans hnew⟩
  rw [← hending]
  exact hdetect (by rw [hnew]; exact List.cons_ne_nil _ _)

end ResourceLanguage
