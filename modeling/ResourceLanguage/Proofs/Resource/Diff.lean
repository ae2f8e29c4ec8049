import ResourceLanguage.Proofs.Diff.Patch
import ResourceLanguage.Proofs.Resource.Terminators
import ResourceLanguage.Resource.Plan

/-!
The diff of a plan. All lines of both texts end with a line feed, so that the printed lines can be
told apart. Read as a unified diff, they turn the original text into the new one.
-/

namespace ResourceLanguage

open ResourceLanguage.Text

namespace Text

/-- A line that ends with its only line feed. -/
def Terminated (line : List Char) : Prop := ∃ start, '\n' ∉ start ∧ line = start ++ ['\n']

theorem areLines_of_terminated {lines : List (List Char)} (h : ∀ line ∈ lines, Terminated line) :
    AreLines lines := by
  induction lines with
  | nil => exact .nil
  | cons line lines ih =>
      obtain ⟨⟨start, hfeed, rfl⟩, hlines⟩ := List.forall_mem_cons.mp h
      exact .cons hfeed (ih hlines)

/-- In a text that ends with a line feed all lines do. -/
theorem terminated_of_mem_rawLines {cs : List Char} (hlast : ∀ c ∈ cs.getLast?, c = '\n')
    {line : List Char} (h : line ∈ rawLines cs) : Terminated line := by
  obtain ⟨c, hc, hfeed⟩ := (areLines_rawLines cs).exists_getLast?_of_mem h
  rw [flatten_rawLines] at hfeed
  obtain rfl : c = '\n' := hfeed.elim id (hlast c)
  obtain ⟨start, hstart, rfl | rfl⟩ := exists_of_mem_rawLines h
  · exact absurd (List.mem_of_getLast? hc) hstart
  · exact ⟨start, hstart, rfl⟩

end Text

theorem eq_of_mem_getLast?_joinLines {lines : List String} {ending : LineEnding} {c : Char}
    (h : c ∈ (joinLines lines ending).toList.getLast?) : c = '\n' := by
  rw [joinLines, String.toList_ofList] at h
  rcases List.eq_nil_or_concat lines with rfl | ⟨front, last, rfl⟩
  · simp at h
  · cases ending <;> simp_all [LineEnding.text, eq_comm]

/-! ### Printed lines -/

namespace Diff

theorem HunkLine.terminated_render {line : HunkLine} (h : Terminated line.text) :
    Terminated line.render := by
  obtain ⟨start, hfeed, htext⟩ := h
  rw [HunkLine.render]
  split
  · exact ⟨[], List.not_mem_nil, rfl⟩
  · refine ⟨line.action.sign :: start, ?_, by rw [htext, List.cons_append]⟩
    rw [List.mem_cons, not_or]
    exact ⟨by cases line.action <;> decide, hfeed⟩

theorem mem_renderRange {start count : Nat} {c : Char}
    (h : c ∈ (renderRange start count).toList) : c.isDigit = true ∨ c = ',' := by
  rw [renderRange] at h
  split at h
  · rw [toList_toString] at h
    exact .inl (isDigit_of_mem_toDigits h)
  · rw [String.toList_append, String.toList_append, toList_toString, toList_toString,
      List.mem_append, List.mem_append] at h
    rcases h with (h | h) | h
    · exact .inl (isDigit_of_mem_toDigits h)
    · exact .inr (List.mem_singleton.mp h)
    · exact .inl (isDigit_of_mem_toDigits h)

/-- The head of a hunk has digits, signs and blanks in it, and ends with a line feed. -/
theorem Hunk.exists_head_eq (hunk : Hunk) :
    ∃ start, hunk.head = start ++ ['\n'] ∧
      ∀ c ∈ start, c.isDigit = true ∨ c ∈ ['@', '-', '+', ' ', ','] := by
  refine ⟨"@@ -".toList ++ ((renderRange hunk.oldStart hunk.oldCount).toList ++ (" +".toList ++
    ((renderRange hunk.newStart hunk.newCount).toList ++ " @@".toList))), by simp [Hunk.head], ?_⟩
  simp only [List.forall_mem_append]
  have hrange : ∀ start count, ∀ c ∈ (renderRange start count).toList,
      c.isDigit = true ∨ c ∈ ['@', '-', '+', ' ', ','] := by
    intro start count c hc
    exact (mem_renderRange hc).imp_right fun hcomma => by simp [hcomma]
  have hmarks : ∀ text : List Char, text.all (['@', '-', '+', ' ', ','].contains ·) = true →
      ∀ c ∈ text, c.isDigit = true ∨ c ∈ ['@', '-', '+', ' ', ','] :=
    fun text htext c hc => .inr (List.contains_iff_mem.mp (List.all_eq_true.mp htext c hc))
  exact ⟨hmarks _ (by decide), hrange _ _, hmarks _ (by decide), hrange _ _, hmarks _ (by decide)⟩

theorem Hunk.terminated_head (hunk : Hunk) : Terminated hunk.head := by
  obtain ⟨start, hhead, hchars⟩ := hunk.exists_head_eq
  exact ⟨start, fun hfeed => absurd (hchars _ hfeed) (by decide), hhead⟩

end Diff

namespace Plan

open Diff

theorem laid_plan (plan : Plan) :
    Laid 0 0 (rawLines plan.originalText.toList) (rawLines plan.newText.toList) plan.hunks :=
  laid_hunks _ _

theorem terminated_of_mem_renderLines (plan : Plan) :
    ∀ line ∈ plan.hunks.flatMap Hunk.renderLines, Terminated line := by
  intro line hline
  obtain ⟨hunk, hhunk, hline⟩ := List.mem_flatMap.mp hline
  rcases List.mem_cons.mp hline with rfl | hline
  · exact hunk.terminated_head
  · -- What is shown is a line of one of the texts, and all of these are terminated.
    obtain ⟨shown, hshown, rfl⟩ := List.mem_map.mp hline
    apply HunkLine.terminated_render
    rcases plan.laid_plan.text_mem hunk hhunk shown hshown with htext | htext
    · exact terminated_of_mem_rawLines (fun _ => eq_of_mem_getLast?_joinLines) htext
    · exact terminated_of_mem_rawLines (fun _ => eq_of_mem_getLast?_joinLines) htext

theorem getLast?_flatten_of_terminated {lines : List (List Char)}
    (h : ∀ line ∈ lines, Terminated line) : ∀ c ∈ lines.flatten.getLast?, c = '\n' := by
  intro c hc
  rcases List.eq_nil_or_concat lines with rfl | ⟨front, last, rfl⟩
  · cases hc
  · rw [List.concat_eq_append] at h hc
    obtain ⟨start, -, rfl⟩ := h last (List.mem_append_right front (List.mem_singleton_self last))
    rw [List.flatten_concat, ← List.append_assoc, List.getLast?_concat] at hc
    exact (Option.some.inj hc).symm

/-- The hunks stand below two lines with other names in the patch, and all lines are terminated. -/
theorem renderDiff_eq (plan : Plan) :
    plan.renderDiff = "--- a/" ++ plan.path ++ "\n+++ b/" ++ plan.path ++ "\n" ++
      String.ofList (plan.hunks.flatMap Hunk.render) := by
  have hhunks : afterLine (afterLine (renderPatch plan.hunks)) =
      plan.hunks.flatMap Hunk.render := rfl
  rw [renderDiff, hhunks, if_pos]
  have hterminated := getLast?_flatten_of_terminated plan.terminated_of_mem_renderLines
  rw [flatten_flatMap_renderLines] at hterminated
  rw [beq_iff_eq, String.toList_append, String.toList_ofList, List.getLast?_append]
  cases hlast : (plan.hunks.flatMap Hunk.render).getLast? with
  | none =>
      rw [String.toList_append, List.getLast?_append]
      rfl
  | some c => rw [hterminated c hlast, Option.some_or]

/-- The lines of a diff are its two header lines and those of the hunks. -/
theorem rawLines_renderDiff (plan : Plan) (hpath : '\n' ∉ plan.path.toList) :
    rawLines plan.renderDiff.toList =
      ("--- a/" ++ plan.path ++ "\n").toList :: ("+++ b/" ++ plan.path ++ "\n").toList ::
        plan.hunks.flatMap Hunk.renderLines := by
  have hold : Terminated ("--- a/" ++ plan.path ++ "\n").toList :=
    ⟨("--- a/" ++ plan.path).toList, by simpa using hpath, by simp⟩
  have hnew : Terminated ("+++ b/" ++ plan.path ++ "\n").toList :=
    ⟨("+++ b/" ++ plan.path).toList, by simpa using hpath, by simp⟩
  have hlines := areLines_of_terminated (List.forall_mem_cons.mpr ⟨hold,
    List.forall_mem_cons.mpr ⟨hnew, plan.terminated_of_mem_renderLines⟩⟩)
  rw [← hlines.rawLines_flatten, List.flatten_cons, List.flatten_cons,
    flatten_flatMap_renderLines]
  simp [renderDiff_eq]

end Plan

/-! ### The change that is shown -/

namespace Diff

def applied? (text : String) (hunks : List ReadHunk) : Option String :=
  (patched? 0 0 (rawLines text.toList) hunks).map fun lines => String.ofList lines.flatten

/-- Hunks of a unified diff with three lines of context that tell how two texts differ. -/
structure Describes (old new : String) (hunks : List ReadHunk) : Prop where
  applied : applied? old hunks = some new
  counts : ∀ hunk ∈ hunks, hunk.old.count = (oldTexts hunk.lines).length ∧
    hunk.new.count = (newTexts hunk.lines).length
  context : ∀ hunk ∈ hunks, hunk.HasContext 3 (rawLines old.toList).length
  empty : hunks = [] ↔ old = new

end Diff

open Diff

theorem Plan.describes_hunks (plan : Plan) :
    Describes plan.originalText plan.newText (plan.hunks.map Hunk.asRead) where
  applied := by
    rw [applied?, patched?_of_laid plan.laid_plan, Option.map_some, flatten_rawLines,
      String.ofList_toList]
  counts := by
    intro read hread
    obtain ⟨hunk, _, rfl⟩ := List.mem_map.mp hread
    exact ⟨hunk.oldCount_eq, hunk.newCount_eq⟩
  context := by
    intro read hread
    obtain ⟨hunk, hhunk, rfl⟩ := List.mem_map.mp hread
    simpa using plan.laid_plan.hasContext hunk hhunk
  empty := by
    rw [List.map_eq_nil_iff]
    constructor
    · -- Nothing is applied, so that the new text is the old one.
      intro hnone
      have hpatched := patched?_of_laid plan.laid_plan
      rw [hnone] at hpatched
      have hlines : rawLines plan.originalText.toList = rawLines plan.newText.toList :=
        Option.some.inj hpatched
      rw [← String.toList_inj, ← flatten_rawLines plan.originalText.toList, hlines,
        flatten_rawLines]
    · intro hsame
      rw [Plan.hunks, hsame, hunks_self]

/-- The printed diff is the change that will be made. Below its two header lines it is a unified
diff which describes how the new text differs from the original one. -/
theorem Plan.renderDiff_describes (plan : Plan) (hpath : '\n' ∉ plan.path.toList) :
    (rawLines plan.renderDiff.toList).take 2 =
        [("--- a/" ++ plan.path ++ "\n").toList, ("+++ b/" ++ plan.path ++ "\n").toList] ∧
      ∃ hunks, readHunks? ((rawLines plan.renderDiff.toList).drop 2) = some hunks ∧
        Describes plan.originalText plan.newText hunks := by
  rw [plan.rawLines_renderDiff hpath]
  refine ⟨rfl, plan.hunks.map Hunk.asRead, ?_, plan.describes_hunks⟩
  exact readHunks?_renderLines plan.hunks

/-- Two hunks far from each other, the second one at the end of the text, with carriage returns. -/
theorem Plan.renderDiff_describes_twoHunks :
    let plan : Plan :=
      { path := "src/Form1.resx"
        originalLines := ["<root>", "$this.Language", "", "1", "2", "3", "", "4", "5", "6", "end"]
        newLines := ["<root>", "", "1", "2", "3", "", "4", "5", "6", "end", "end"]
        lineEnding := .carriageReturnLineFeed }
    '\n' ∉ plan.path.toList ∧ plan.originalText ≠ plan.newText ∧
      ∃ hunks, readHunks? ((rawLines plan.renderDiff.toList).drop 2) = some hunks ∧ hunks ≠ [] ∧
        Describes plan.originalText plan.newText hunks := by
  intro plan
  have hpath : '\n' ∉ plan.path.toList := by decide +kernel
  have hchanged : plan.originalText ≠ plan.newText := by decide +kernel
  obtain ⟨_, hunks, hread, hdescribes⟩ := plan.renderDiff_describes hpath
  exact ⟨hpath, hchanged, hunks, hread, fun hnone => hchanged (hdescribes.empty.mp hnone),
    hdescribes⟩

end ResourceLanguage
