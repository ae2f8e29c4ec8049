import Mathlib.Data.List.TakeWhile
import Mathlib.Logic.Function.Iterate
import ResourceLanguage.Proofs.Resource.Lines
import ResourceLanguage.Resource.Plan

/-!
What restoring the default language does to the content of a resource file. Each restoration that
changes the content takes away a line with the marker, so that repeating it comes to an end and
never leads back.
-/

namespace ResourceLanguage

open ResourceLanguage.Text

/-! ### Removing one block of lines -/

/-- Lines with the marker have a first one. -/
theorem exists_eq_append_marked {lines : List String} (h : lines.any hasMarker = true) :
    ∃ header marked block, lines = header ++ marked :: block ∧
      (∀ line ∈ header, hasMarker line = false) ∧ hasMarker marked = true := by
  obtain ⟨marked, hfind⟩ := Option.isSome_iff_exists.mp (List.find?_isSome.mpr
    (List.any_eq_true.mp h))
  obtain ⟨hmarked, header, block, rfl, hheader⟩ := List.find?_eq_some_iff_append.mp hfind
  exact ⟨header, marked, block, rfl, by simpa using hheader, hmarked⟩

theorem stripMarkerLines_append {header : List String}
    (hheader : ∀ line ∈ header, hasMarker line = false) {marked : String}
    (hmarked : hasMarker marked = true) (block : List String) :
    stripMarkerLines (header ++ marked :: block) =
      header ++ ((marked :: block).dropWhile fun line => !hasClosingTag line).drop 1 := by
  have hall : ∀ line ∈ header, (!hasMarker line) = true := by simpa using hheader
  have htake : (header ++ marked :: block).takeWhile (fun line => !hasMarker line) = header := by
    rw [List.takeWhile_append_of_pos hall, List.takeWhile_cons_of_neg (by simp [hmarked]),
      List.append_nil]
  have hdrop : (header ++ marked :: block).dropWhile (fun line => !hasMarker line) =
      marked :: block := by
    rw [List.dropWhile_append_of_pos hall, List.dropWhile_cons_of_neg (by simp [hmarked])]
  rw [stripMarkerLines, htake, hdrop]

theorem stripMarkerLines_of_unmarked {lines : List String} (h : lines.any hasMarker = false) :
    stripMarkerLines lines = lines := by
  have hall : ∀ line ∈ lines, (!hasMarker line) = true := by simpa using h
  rw [stripMarkerLines, List.takeWhile_eq_self_iff.mpr hall, List.dropWhile_eq_nil_iff.mpr hall]
  simp

/-- What is left after the removed block stood behind its first line. -/
theorem drop_dropWhile_sublist (p : String → Bool) (marked : String) (block : List String) :
    (((marked :: block).dropWhile p).drop 1).Sublist block := by
  rw [List.dropWhile_cons]
  split
  · exact (List.drop_sublist _ _).trans (List.dropWhile_sublist _)
  · exact List.Sublist.refl _

/-- The removed block begins with a line that has the marker. -/
theorem countP_stripMarkerLines_lt {lines : List String} (h : lines.any hasMarker = true) :
    (stripMarkerLines lines).countP hasMarker < lines.countP hasMarker := by
  obtain ⟨header, marked, block, rfl, hheader, hmarked⟩ := exists_eq_append_marked h
  have hrest := (drop_dropWhile_sublist (fun line => !hasClosingTag line) marked block).countP_le
    (p := hasMarker)
  rw [stripMarkerLines_append hheader hmarked, List.countP_append, List.countP_append,
    List.countP_cons_of_pos hmarked]
  omega

theorem stripMarkerLines_sublist (lines : List String) :
    (stripMarkerLines lines).Sublist lines := by
  cases h : lines.any hasMarker with
  | false => rw [stripMarkerLines_of_unmarked h]
  | true =>
      obtain ⟨header, marked, block, rfl, hheader, hmarked⟩ := exists_eq_append_marked h
      rw [stripMarkerLines_append hheader hmarked]
      exact (List.Sublist.refl header).append
        ((drop_dropWhile_sublist _ marked block).cons marked)

/-! ### The text of a file -/

/-- The text that the plan for a file with the given text writes. The path has no part in it. -/
def restoredText (text : String) : String := (Plan.ofText "" text).newText

theorem newText_ofText (path : Path) (text : String) :
    (Plan.ofText path text).newText = restoredText text := rfl

theorem restoredText_eq (text : String) :
    restoredText text =
      joinLines (stripMarkerLines (textLines text)) (LineEnding.detect text) := rfl

def markedLineCount (text : String) : Nat := (textLines text).countP hasMarker

theorem markedLineCount_eq (text : String) :
    markedLineCount text =
      (rawLines text.toList).countP fun line => hasMarker (String.ofList line) := by
  simp only [markedLineCount, textLines, bareLines, List.countP_map, Function.comp_def,
    hasMarker_ofList_bareLine]

theorem hasMarker_append_ending (line : String) (ending : LineEnding) :
    hasMarker (String.ofList (line.toList ++ ending.text.toList)) = hasMarker line := by
  rw [Bool.eq_iff_iff, hasMarker, hasMarker, occursIn_iff_isInfix, occursIn_iff_isInfix,
    String.toList_ofList]
  have hfeed (cs : List Char) :
      markerToken.toList <:+: cs ++ ['\n'] ↔ markerToken.toList <:+: cs :=
    isInfix_append_singleton (by decide) (by decide)
  cases ending with
  | lineFeed => exact hfeed line.toList
  | carriageReturnLineFeed =>
      change _ <:+: line.toList ++ ['\r', '\n'] ↔ _
      rw [List.append_cons, hfeed, isInfix_append_singleton (by decide) (by decide)]

/-- The restored text has the marker on the lines that are left. -/
theorem markedLineCount_restoredText (text : String) :
    markedLineCount (restoredText text) =
      (stripMarkerLines (textLines text)).countP hasMarker := by
  have hfeed : ∀ line ∈ stripMarkerLines (textLines text), '\n' ∉ line.toList :=
    fun line hline => lineFeed_notMem_of_mem_textLines
      ((stripMarkerLines_sublist _).subset hline)
  rw [markedLineCount_eq, restoredText_eq, rawLines_joinLines hfeed, List.countP_map]
  simp only [Function.comp_def, hasMarker_append_ending]

theorem isNoop_ofText (path : Path) (text : String) :
    (Plan.ofText path text).isNoop = !(textLines text).any hasMarker := by
  change (textLines text == stripMarkerLines (textLines text)) = _
  cases h : (textLines text).any hasMarker with
  | false => simp [stripMarkerLines_of_unmarked h]
  | true =>
      have hlt := countP_stripMarkerLines_lt h
      have hne : textLines text ≠ stripMarkerLines (textLines text) := by
        intro heq
        rw [← heq] at hlt
        exact Nat.lt_irrefl _ hlt
      simpa using hne

/-! ### The content of a file -/

/-- The content that one restoration leaves: a text with the marker is restored, and anything else
stays as it is. -/
def restoreContent (content : List UInt8) : List UInt8 :=
  match String.fromUTF8? content.toByteArray with
  | some text =>
      if (textLines text).any hasMarker then (restoredText text).toUTF8.data.toList else content
  | none => content

theorem fromUTF8?_toUTF8 (text : String) :
    String.fromUTF8? text.toUTF8.data.toList.toByteArray = some text := by
  have h : text.toUTF8.data.toList.toByteArray = text.toUTF8 := by
    apply ByteArray.ext
    simp
  rw [h]
  exact dif_pos text.isValidUTF8

theorem eq_toUTF8_of_fromUTF8? {content : List UInt8} {text : String}
    (h : String.fromUTF8? content.toByteArray = some text) :
    content = text.toUTF8.data.toList := by
  rw [String.fromUTF8?] at h
  split at h
  · rw [Option.some_inj] at h
    subst h
    show content = content.toByteArray.data.toList
    simp
  · cases h

def ContentMarked (content : List UInt8) : Prop :=
  ∃ text, String.fromUTF8? content.toByteArray = some text ∧
    (textLines text).any hasMarker = true

theorem contentMarked_toUTF8_iff {text : String} :
    ContentMarked text.toUTF8.data.toList ↔ (textLines text).any hasMarker = true := by
  constructor
  · rintro ⟨found, hfound, hmarked⟩
    rw [fromUTF8?_toUTF8, Option.some_inj] at hfound
    rwa [hfound]
  · intro hmarked
    exact ⟨text, fromUTF8?_toUTF8 text, hmarked⟩

theorem restoreContent_of_marked {content : List UInt8} {text : String}
    (htext : String.fromUTF8? content.toByteArray = some text)
    (hmarked : (textLines text).any hasMarker = true) :
    restoreContent content = (restoredText text).toUTF8.data.toList := by
  rw [restoreContent, htext]
  exact if_pos hmarked

theorem restoreContent_of_not_marked {content : List UInt8} (h : ¬ContentMarked content) :
    restoreContent content = content := by
  rw [restoreContent]
  split
  · rename_i text htext
    exact if_neg fun hmarked => h ⟨text, htext, hmarked⟩
  · rfl

/-- Restoring makes no text of what is none, and leaves texts texts. -/
theorem isSome_fromUTF8?_restoreContent (content : List UInt8) :
    (String.fromUTF8? (restoreContent content).toByteArray).isSome =
      (String.fromUTF8? content.toByteArray).isSome := by
  by_cases h : ContentMarked content
  · obtain ⟨text, htext, hmarked⟩ := h
    rw [restoreContent_of_marked htext hmarked, fromUTF8?_toUTF8, htext]
    rfl
  · rw [restoreContent_of_not_marked h]

/-- The number of lines with the marker in a content that is a text. -/
def contentMarks (content : List UInt8) : Nat :=
  (String.fromUTF8? content.toByteArray).elim 0 markedLineCount

theorem contentMarks_of_text {content : List UInt8} {text : String}
    (htext : String.fromUTF8? content.toByteArray = some text) :
    contentMarks content = markedLineCount text := by
  rw [contentMarks, htext, Option.elim_some]

/-- Restoring a text with the marker takes away a line with the marker. -/
theorem contentMarks_restoreContent_lt {content : List UInt8} (h : ContentMarked content) :
    contentMarks (restoreContent content) < contentMarks content := by
  obtain ⟨text, htext, hmarked⟩ := h
  rw [restoreContent_of_marked htext hmarked, contentMarks_of_text htext,
    contentMarks_of_text (fromUTF8?_toUTF8 _), markedLineCount_restoredText]
  exact countP_stripMarkerLines_lt hmarked

/-- Exactly the texts with the marker are changed. -/
theorem restoreContent_eq_self_iff {content : List UInt8} :
    restoreContent content = content ↔ ¬ContentMarked content := by
  refine ⟨fun heq hmarked => ?_, restoreContent_of_not_marked⟩
  have hlt := contentMarks_restoreContent_lt hmarked
  rw [heq] at hlt
  exact lt_irrefl _ hlt

theorem contentMarks_restoreContent_le (content : List UInt8) :
    contentMarks (restoreContent content) ≤ contentMarks content := by
  by_cases h : ContentMarked content
  · exact (contentMarks_restoreContent_lt h).le
  · rw [restoreContent_of_not_marked h]

theorem contentMarks_iterate_le (n : ℕ) (content : List UInt8) :
    contentMarks (restoreContent^[n] content) ≤ contentMarks content := by
  induction n generalizing content with
  | zero => exact le_rfl
  | succ n ih => exact (ih (restoreContent content)).trans (contentMarks_restoreContent_le content)

/-- What restorations have changed never comes back. -/
theorem iterate_restoreContent_eq_self_iff (n : ℕ) (content : List UInt8) :
    restoreContent^[n] content = content ↔ n = 0 ∨ restoreContent content = content := by
  cases n with
  | zero => simp
  | succ n =>
      constructor
      · intro heq
        -- The first restoration would take away a line with the marker, and none brings one back.
        by_contra h
        rw [not_or, restoreContent_eq_self_iff, not_not] at h
        have hlt := contentMarks_restoreContent_lt h.2
        have hle := contentMarks_iterate_le n (restoreContent content)
        rw [← Function.iterate_succ_apply, heq] at hle
        exact absurd hlt (not_lt.mpr hle)
      · rintro (h | h)
        · cases h
        · exact Function.iterate_fixed h (n + 1)

end ResourceLanguage
