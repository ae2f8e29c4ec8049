import Mathlib.Data.List.Forall2
import ResourceLanguage.Proofs.Order
import ResourceLanguage.Proofs.Text.Number
import ResourceLanguage.Report

/-!
The layout of reports. A report has one block for each issue, in the order of their places, and a
last line with their number. Blocks with a line of source have a margin in front, which is wide
enough for every line number of the report, so that the marks behind it stand below each other.
-/

namespace ResourceLanguage

open ResourceLanguage.Text

/-! ### The order of issues -/

/-- What issues are ordered by. What concerns a whole file stands before its first line. -/
def Issue.key : Issue → String ×ₗ ℕ ×ₗ ℕ
  | .languageOverride found => found.location.key
  | .unreadableFile found => toLex (found.file, toLex (0, 0))

theorem Issue.le_iff_key_le (a b : Issue) : a.le b = true ↔ a.key ≤ b.key := by
  have hkey : ∀ issue : Issue, issue.key = toLex (issue.file, toLex (issue.line, issue.col)) := by
    intro issue
    cases issue <;> rfl
  rw [hkey, hkey, Prod.Lex.toLex_le_toLex, Prod.Lex.toLex_le_toLex, le]
  by_cases hfile : a.file = b.file
  · by_cases hline : a.line = b.line
    · simp [hfile, hline]
    · simp [hfile, hline]
  · simp only [bne_iff_ne, ne_eq, hfile, not_false_eq_true, if_true, decide_eq_true_eq,
      false_and, or_false]

namespace Report

/-- The issues in the order in which a report lists them: each of them once, by place, and in the
given order where the places are the same. -/
structure Lists (issues order : List Issue) : Prop where
  perm : order.Perm issues
  sorted : order.Pairwise fun a b => a.key ≤ b.key
  stable : ∀ key, (order.filter fun issue => issue.key = key) =
    issues.filter fun issue => issue.key = key

theorem lists_mergeSort (issues : List Issue) : Lists issues (issues.mergeSort Issue.le) where
  perm := List.mergeSort_perm issues Issue.le
  sorted := pairwise_mergeSort_key Issue.le_iff_key_le issues
  stable key := filter_mergeSort_key Issue.le_iff_key_le key issues

/-! ### Blocks -/

def blanks (n : Nat) : String := String.ofList (List.replicate n ' ')

/-- The first `mark` of a line stands in the given column. -/
def MarkAt (mark : Char) (column : Nat) (line : String) : Prop :=
  line.toList[column]? = some mark ∧ mark ∉ line.toList.take column

/-- The lines that show where an issue is in the source: a line with nothing but the bar, the line
of source behind its number, a caret below its column, and a hint. The bars and the equals sign
stand in the same column. -/
structure IsExcerpt (column : Nat) (location : Location) (bar source caret hint : String) :
    Prop where
  bar_eq : bar = blanks column ++ "|\n"
  source_eq : ∃ gap, source = blanks gap ++ toString location.line ++ " | " ++
    location.sourceLine ++ "\n"
  caret_eq : caret = blanks column ++ "| " ++
    blanks (displayWidth (location.sourceLine.toList.take (location.col - 1))) ++ "^\n"
  hint_eq : hint = blanks column ++
    "= hint: run `relang fix --apply` to restore the default language\n"
  bar_at : MarkAt '|' column bar
  source_at : MarkAt '|' column source
  caret_at : MarkAt '|' column caret
  hint_at : MarkAt '=' column hint

/-- The text that a report without colors has for an issue. -/
inductive IsBlock (column : Nat) : Issue → String → Prop where
  | source (found : LanguageOverride) {bar source caret hint : String}
      (excerpt : IsExcerpt column found.location bar source caret hint) :
      IsBlock column (.languageOverride found)
        ("error[A0001]: " ++ found.message ++ "  default-language\n" ++
          "  --> " ++ found.location.file ++ ":" ++ toString found.location.line ++ ":" ++
            toString found.location.col ++ "\n" ++
          bar ++ source ++ caret ++ hint ++ "\n")
  | file (found : UnreadableFile) :
      IsBlock column (.unreadableFile found)
        ("error: " ++ found.error ++ "  parse-error\n" ++ "  --> " ++ found.file ++ "\n" ++ "\n")

def plain : Palette := ⟨false⟩

@[simp] theorem paint_plain (styles : List Style) (text : String) :
    plain.paint styles text = text := rfl

@[simp] theorem toList_blanks (n : Nat) : (blanks n).toList = List.replicate n ' ' :=
  String.toList_ofList

theorem padLeft_empty (width : Nat) : padLeft width "" = blanks width := by
  simp [padLeft, blanks]

theorem blanks_succ (n : Nat) : blanks (n + 1) = blanks n ++ " " := by
  rw [← String.toList_inj]
  simp [List.replicate_succ']

/-- A mark behind a margin that does not have it. -/
theorem markAt_append {mark : Char} {margin : String} (h : mark ∉ margin.toList) (rest : String) :
    MarkAt mark margin.length (margin ++ (String.singleton mark ++ rest)) := by
  rw [MarkAt, String.toList_append, String.toList_append, ← String.length_toList, List.take_left]
  exact ⟨by simp, h⟩

theorem markAt_blanks_append {mark : Char} (h : mark ≠ ' ') (column : Nat) (rest : String) :
    MarkAt mark column (blanks column ++ (String.singleton mark ++ rest)) := by
  have hmark : mark ∉ (blanks column).toList := by
    rw [toList_blanks]
    intro hmem
    exact h (List.eq_of_mem_replicate hmem)
  have hat := markAt_append hmark rest
  rwa [← String.length_toList, toList_blanks, List.length_replicate] at hat

theorem length_padLeft {width : Nat} {text : String} (h : text.length ≤ width) :
    (padLeft width text).length = width := by
  rw [padLeft, String.length_append, String.length_ofList, List.length_replicate]
  omega

theorem bar_notMem_padLeft (width n : Nat) : '|' ∉ (padLeft width (toString n)).toList := by
  rw [padLeft, String.toList_append, String.toList_ofList, toList_toString, List.mem_append, not_or]
  constructor
  · intro hmem
    exact absurd (List.eq_of_mem_replicate hmem) (by decide)
  · intro hmem
    exact absurd (isDigit_of_mem_toDigits hmem) (by decide)

/-- The lines of an excerpt are aligned if the margin is wide enough for the line number. -/
theorem isExcerpt_of_le {width : Nat} {location : Location}
    (h : (toString location.line).length ≤ width) :
    IsExcerpt (width + 1) location (blanks (width + 1) ++ "|\n")
      (padLeft width (toString location.line) ++ " | " ++ location.sourceLine ++ "\n")
      (blanks (width + 1) ++ "| " ++
        blanks (displayWidth (location.sourceLine.toList.take (location.col - 1))) ++ "^\n")
      (blanks (width + 1) ++
        "= hint: run `relang fix --apply` to restore the default language\n") where
  bar_eq := rfl
  source_eq := ⟨width - (toString location.line).length, rfl⟩
  caret_eq := rfl
  hint_eq := rfl
  bar_at := markAt_blanks_append (by decide) (width + 1) "\n"
  source_at := by
    have hbar : '|' ∉ (padLeft width (toString location.line) ++ " ").toList := by
      rw [String.toList_append, List.mem_append, not_or]
      exact ⟨bar_notMem_padLeft width location.line, by decide⟩
    have hat := markAt_append hbar (" " ++ location.sourceLine ++ "\n")
    rw [String.length_append, length_padLeft h] at hat
    have hline : padLeft width (toString location.line) ++ " | " ++ location.sourceLine ++ "\n" =
        padLeft width (toString location.line) ++ " " ++
          (String.singleton '|' ++ (" " ++ location.sourceLine ++ "\n")) := by
      rw [← String.toList_inj]
      simp
    rw [hline]
    exact hat
  caret_at := by
    rw [String.append_assoc, String.append_assoc]
    exact markAt_blanks_append (by decide) (width + 1) (" " ++ _)
  hint_at := markAt_blanks_append (by decide) (width + 1)
    " hint: run `relang fix --apply` to restore the default language\n"

theorem heading_plain (issue : Issue) :
    heading plain issue =
      issue.severity.name ++ ((issue.code?.map fun code => "[" ++ code ++ "]").getD "") ++ ": " ++
        issue.message ++ ("  " ++ issue.ruleName ++ "\n") := by
  have hend : ∀ text name : String, text ++ "  " ++ name ++ "\n" =
      text ++ ("  " ++ name ++ "\n") := by
    intro text name
    rw [String.append_assoc, String.append_assoc, String.append_assoc]
  exact hend _ _

/-- The lines of an excerpt without colors. -/
theorem excerpt_plain (width : Nat) (severity : Severity) (location : Location) :
    excerpt plain width severity location =
      blanks (width + 1) ++ "|\n" ++
        (padLeft width (toString location.line) ++ " | " ++ location.sourceLine ++ "\n") ++
        (blanks (width + 1) ++ "| " ++
          blanks (displayWidth (location.sourceLine.toList.take (location.col - 1))) ++ "^\n") := by
  have hlines : excerpt plain width severity location =
      padLeft width "" ++ " " ++ "|" ++ "\n" ++
        padLeft width (toString location.line) ++ " " ++ "|" ++ " " ++
          location.sourceLine ++ "\n" ++
        padLeft width "" ++ " " ++ "|" ++ " " ++
          padLeft (displayWidth (location.sourceLine.toList.take (location.col - 1))) "" ++
          "^" ++ "\n" := rfl
  rw [hlines, ← String.toList_inj]
  simp [padLeft_empty, blanks_succ]

theorem hint_languageOverride (width : Nat) (found : LanguageOverride) :
    hint plain width (.languageOverride found) = blanks (width + 1) ++
      "= hint: run `relang fix --apply` to restore the default language\n" := by
  have hend : ∀ text : String, text ++ "=" ++ " " ++ "hint:" ++ " " ++
      "run `relang fix --apply` to restore the default language" ++ "\n" =
        text ++ "= hint: run `relang fix --apply` to restore the default language\n" := by
    intro text
    simp only [String.append_assoc]
    rfl
  rw [blanks_succ, ← padLeft_empty]
  exact hend _

theorem isBlock_block {width : Nat} {issue : Issue}
    (h : ∀ line, sourceLine? issue = some line → (toString line).length ≤ width) :
    IsBlock (width + 1) issue (block plain width issue) := by
  cases issue with
  | languageOverride found =>
      convert IsBlock.source found (isExcerpt_of_le (h found.location.line rfl)) using 1
      have hheading : heading plain (.languageOverride found) =
          "error[A0001]: " ++ found.message ++ "  default-language\n" := heading_plain _
      have hplace : place plain width (.languageOverride found) =
          "  --> " ++ found.location.file ++ ":" ++ toString found.location.line ++ ":" ++
            toString found.location.col ++ "\n" ++
            excerpt plain width .error found.location := rfl
      rw [block, hheading, hplace, excerpt_plain, hint_languageOverride]
      simp only [String.append_assoc]
  | unreadableFile found =>
      convert IsBlock.file found using 1
      have hheading : heading plain (.unreadableFile found) =
          "error: " ++ found.error ++ "  parse-error\n" := heading_plain _
      have hplace : place plain width (.unreadableFile found) =
          "  --> " ++ found.file ++ "\n" := rfl
      have hhint : hint plain width (.unreadableFile found) = "" := rfl
      rw [block, hheading, hplace, hhint, String.append_empty]
      simp only [String.append_assoc]

/-! ### The margin -/

/-- Every line number fits into the margin. -/
theorem length_le_marginWidth {issues : List Issue} {issue : Issue} {line : Nat}
    (hmem : issue ∈ issues) (hline : sourceLine? issue = some line) :
    (toString line).length ≤ marginWidth issues := by
  have hlines : line ∈ issues.filterMap sourceLine? := List.mem_filterMap.mpr ⟨issue, hmem, hline⟩
  unfold marginWidth
  split
  · simp_all
  · rename_i first lines heq
    rw [heq] at hlines
    have hmax : line ≤ lines.foldl max first :=
      (List.max?_eq_some_iff.mp (@List.max?_cons' _ first _ lines)).2 line hlines
    rw [← String.length_toList, ← String.length_toList, toList_toString, toList_toString]
    exact length_toDigits_le hmax

/-! ### The summary -/

def summaryLine (n : Nat) : String :=
  "✘ " ++ toString n ++ " " ++ plural n "problem" ++ " (" ++ toString n ++ " " ++
    plural n "error" ++ ", 0 warnings)\n"

theorem summary_plain {issues : List Issue} (h : issues ≠ []) :
    summary plain issues = summaryLine issues.length := by
  have hseverity : ∀ issue : Issue, issue.severity = .error := by
    intro issue
    cases issue <;> rfl
  have herrors : issues.countP (·.severity == .error) = issues.length := by
    simp [hseverity]
  have hwarnings : issues.countP (·.severity == .warning) = 0 := by
    simp [hseverity]
  rw [summary, herrors, hwarnings, Nat.add_zero, if_neg (by simpa using h), ← String.toList_inj]
  simp [summaryLine, failureMark, plural]

/-! ### The whole report -/

theorem render_plain {issues : List Issue} (h : issues ≠ []) :
    render plain issues =
      String.join ((issues.mergeSort Issue.le).map
        (block plain (marginWidth (issues.mergeSort Issue.le)))) ++ summaryLine issues.length := by
  have hsorted : issues.mergeSort Issue.le ≠ [] := by
    rwa [ne_eq, ← List.length_eq_zero_iff, List.length_mergeSort, List.length_eq_zero_iff]
  rw [render, if_neg (by simpa using h)]
  dsimp only
  rw [summary_plain hsorted, List.length_mergeSort]

theorem forall_isBlock (issues : List Issue) :
    List.Forall₂ (IsBlock (marginWidth issues + 1)) issues
      (issues.map (block plain (marginWidth issues))) := by
  rw [List.forall₂_map_right_iff, List.forall₂_same]
  intro issue hmem
  exact isBlock_block fun line hline => length_le_marginWidth hmem hline

/-- The report on some issues is one block for each of them, in the order of their places, and a
line with their number. The marks of all blocks stand in the same column. If no two issues are at
the same place, the order in which they are given does not matter. -/
theorem render_layout (issues : List Issue) (h : issues ≠ []) :
    (∃ order blocks column, Lists issues order ∧ List.Forall₂ (IsBlock column) order blocks ∧
      render plain issues = String.join blocks ++ summaryLine issues.length) ∧
    ((issues.map Issue.key).Nodup →
      ∀ issues', issues'.Perm issues → render plain issues' = render plain issues) := by
  refine ⟨?_, fun hnodup issues' hperm => ?_⟩
  · exact ⟨_, _, _, lists_mergeSort issues, forall_isBlock _, render_plain h⟩
  · have hne : issues' ≠ [] := fun hnil => h (by simpa [hnil] using hperm.symm)
    rw [render_plain h, render_plain hne, hperm.length_eq,
      ← mergeSort_eq_of_perm Issue.le_iff_key_le hperm.symm hnodup]

/-- Two issues of one file, out of order and with line numbers of different lengths, and a file that
cannot be read. -/
def mixedIssues : List Issue :=
  [.languageOverride ⟨⟨"b.cs", 12, 7, "class Form"⟩, "Form"⟩,
    .unreadableFile ⟨"b.cs", "Failed to read file"⟩,
    .languageOverride ⟨⟨"b.cs", 7, 7, "class Dialog"⟩, "Dialog"⟩]

theorem render_layout_mixed :
    mixedIssues ≠ [] ∧ (mixedIssues.map Issue.key).Nodup ∧
      (∃ order blocks column, Lists mixedIssues order ∧
        List.Forall₂ (IsBlock column) order blocks ∧
        render plain mixedIssues = String.join blocks ++ summaryLine 3) ∧
      render plain mixedIssues.reverse = render plain mixedIssues := by
  have hne : mixedIssues ≠ [] := List.cons_ne_nil _ _
  have hnodup : (mixedIssues.map Issue.key).Nodup := by decide +kernel
  have hlayout := render_layout mixedIssues hne
  exact ⟨hne, hnodup, hlayout.1, hlayout.2 hnodup _ (List.reverse_perm mixedIssues)⟩

end Report

end ResourceLanguage
