import Mathlib.Data.List.TFAE
import ResourceLanguage.Proofs.Fix.Declared
import ResourceLanguage.Proofs.Text.Encoding

/-!
Finding the marker and planning its removal. The analysis looks through the whole decoded text of a
resource file, a plan looks at the lines of the text with its byte order mark. Of every file in
UTF-8 both say the same: it has the marker exactly when there is something to remove.
-/

namespace ResourceLanguage

open ResourceLanguage.Text

theorem planRestore_of_companion {files : Workspace} {declaringFile path : Path}
    {typeName text : String}
    (hcompanion : companion? files (directoryOf declaringFile) typeName = .ok (some path))
    (htext : files.readText path = .ok text) :
    planRestore files declaringFile typeName = .ok (some (Plan.ofText path text)) := by
  rw [planRestore, hcompanion]
  simp only [bind, Except.bind, htext, Except.mapError]
  rfl

/-- A preview of a plan shows it, unless it changes nothing. -/
theorem applyPlan_preview (plan : Plan) (files : Workspace) :
    applyPlan (some plan) .preview files =
      .ok (if plan.isNoop then .noChange else .preview plan, files) := by
  rw [applyPlan]
  split <;> rfl

theorem isNoop_ofText_eq_false_iff (path : Path) (text : String) :
    (Plan.ofText path text).isNoop = false ↔ hasMarker text = true := by
  rw [isNoop_ofText, ← hasMarker_eq_any_textLines, Bool.not_eq_false']

theorem applyPlan_preview_ofText_iff (path : Path) (text : String) (files : Workspace) :
    applyPlan (some (Plan.ofText path text)) .preview files =
        .ok (.preview (Plan.ofText path text), files) ↔
      hasMarker text = true := by
  rw [applyPlan_preview, ← isNoop_ofText_eq_false_iff path text]
  cases (Plan.ofText path text).isNoop with
  | false => simp
  | true => simp

/-- Detection and planning agree on every resource file in UTF-8, with or without a byte order mark.
The analysis finds the marker in the decoded text exactly when a line that a fix reads has it, when
the plan of the fix changes something, and when its preview shows the plan; otherwise there is
nothing to change. -/
theorem detection_agrees_with_planning {files : Workspace} {path : Path} {content : List UInt8}
    {text : String} (hread : files.read path = .ok content)
    (htext : String.fromUTF8? content.toByteArray = some text) {declaringFile : Path}
    {typeName : String}
    (hcompanion : companion? files (directoryOf declaringFile) typeName = .ok (some path)) :
    (∀ paths, ∀ listed ∈ paths, files.read listed = .ok content →
      ⟨listed, decodeLossy content⟩ ∈ readResources files paths) ∧
    ∃ plan, planRestore files declaringFile typeName = .ok (some plan) ∧ plan.path = path ∧
      plan.originalLines = textLines text ∧
      [hasMarker (decodeLossy content) = true,
        ∃ line ∈ textLines text, hasMarker line = true,
        plan.isNoop = false,
        applyPlan (some plan) .preview files = .ok (.preview plan, files)].TFAE ∧
      (hasMarker (decodeLossy content) = false →
        applyPlan (some plan) .preview files = .ok (.noChange, files)) := by
  have hreadText : files.readText path = .ok text := by
    simp only [Workspace.readText, hread, bind, Except.bind, htext]
  have hdecoded := hasMarker_of_fromUTF8? htext
  refine ⟨?_, Plan.ofText path text, planRestore_of_companion hcompanion hreadText, rfl, rfl, ?_,
    fun hunmarked => ?_⟩
  · intro paths listed hlisted hcontent
    exact mem_readResources.mpr ⟨listed, hlisted, content, hcontent, rfl⟩
  · -- Every statement says that the text of the file has the marker.
    apply List.tfae_of_forall (hasMarker text = true)
    simp only [List.forall_mem_cons, List.not_mem_nil, false_implies, implies_true, and_true]
    refine ⟨?_, ?_, isNoop_ofText_eq_false_iff path text,
      applyPlan_preview_ofText_iff path text files⟩
    · rw [hdecoded]
    · rw [hasMarker_eq_any_textLines, List.any_eq_true]
  · have hnoop : (Plan.ofText path text).isNoop = true := by
      rw [isNoop_ofText, ← hasMarker_eq_any_textLines, ← hdecoded, hunmarked]
      rfl
    rw [applyPlan_preview, hnoop]
    rfl

/-- A file with a byte order mark, all sorts of line ends and the marker before two carriage
returns. -/
theorem detection_agrees_with_planning_markedForm :
    let text := "\ufeff<root>\n$this.Language\r\r\n</metadata>\r\n</root>\r"
    let content := text.toUTF8.data.toList
    let files : Workspace := ⟨[(["Form.cs"], .file []), (["Form.resx"], .file content)], []⟩
    files.read "./Form.resx" = .ok content ∧
      String.fromUTF8? content.toByteArray = some text ∧
      companion? files (directoryOf "Form.cs") "Form" = .ok (some "./Form.resx") ∧
      hasMarker (decodeLossy content) = true ∧
      ∃ plan, planRestore files "Form.cs" "Form" = .ok (some plan) ∧ plan.isNoop = false ∧
        applyPlan (some plan) .preview files = .ok (.preview plan, files) := by
  intro text content files
  have hread : files.read "./Form.resx" = .ok content := by decide +kernel
  have htext : String.fromUTF8? content.toByteArray = some text := fromUTF8?_toUTF8 text
  have hcompanion : companion? files (directoryOf "Form.cs") "Form" = .ok (some "./Form.resx") := by
    decide +kernel
  have hmarker : hasMarker (decodeLossy content) = true := by decide +kernel
  obtain ⟨-, plan, hplan, -, -, htfae, -⟩ := detection_agrees_with_planning hread htext hcompanion
  exact ⟨hread, htext, hcompanion, hmarker, plan, hplan, (htfae.out 0 2).mp hmarker,
    (htfae.out 0 3).mp hmarker⟩

end ResourceLanguage
