import Mathlib.Data.List.Infix
import ResourceLanguage.Resource.Edit

/-!
Lines of resource files. Neither the marker nor the closing tag can cross the end of a line, so that
lines with or without their terminators tell the same about them.
-/

namespace ResourceLanguage

open ResourceLanguage.Text

namespace Text

/-- A piece is not found across a character that it does not have. -/
theorem isInfix_append_singleton {piece cs : List Char} {c : Char} (hpiece : piece ≠ [])
    (hc : c ∉ piece) : piece <:+: cs ++ [c] ↔ piece <:+: cs := by
  rw [List.infix_concat_iff]
  refine ⟨?_, Or.inr⟩
  rintro (hsuffix | hinside)
  · rcases List.suffix_concat_iff.mp hsuffix with rfl | ⟨start, rfl, _⟩
    · exact absurd rfl hpiece
    · exact absurd (by simp) hc
  · exact hinside

theorem rawLines_append_lineFeed {line : List Char} (h : '\n' ∉ line) (rest : List Char) :
    rawLines (line ++ '\n' :: rest) = (line ++ ['\n']) :: rawLines rest := by
  induction line with
  | nil => simp [rawLines]
  | cons c line ih =>
      rw [List.mem_cons, not_or] at h
      simp only [List.cons_append, rawLines, ih h.2, if_neg (Ne.symm h.1)]

/-- A raw line has its line feed at the end, if it has one. -/
theorem exists_of_mem_rawLines {cs line : List Char} (h : line ∈ rawLines cs) :
    ∃ start, '\n' ∉ start ∧ (line = start ∨ line = start ++ ['\n']) := by
  induction cs generalizing line with
  | nil => simp [rawLines] at h
  | cons c cs ih =>
      rw [rawLines] at h
      split at h
      · rcases List.mem_cons.mp h with rfl | h
        · exact ⟨[], by simp, .inr rfl⟩
        · exact ih h
      · rename_i hc
        split at h
        · rcases List.mem_singleton.mp h with rfl
          exact ⟨[c], by simpa using Ne.symm hc, .inl rfl⟩
        · rename_i first rest heq
          rw [heq] at ih
          rcases List.mem_cons.mp h with rfl | h
          · obtain ⟨start, hstart, hfirst⟩ := ih (List.mem_cons_self ..)
            refine ⟨c :: start, by simpa using ⟨Ne.symm hc, hstart⟩, ?_⟩
            rcases hfirst with rfl | rfl
            · exact .inl rfl
            · exact .inr rfl
          · exact ih (List.mem_cons_of_mem _ h)

/-! ### Lines put together -/

/-- Lines that can stand one after the other: each ends with its only line feed, but for the last
one, which may have none. -/
inductive AreLines : List (List Char) → Prop where
  | nil : AreLines []
  | last {line : List Char} (hne : line ≠ []) (hfeed : '\n' ∉ line) : AreLines [line]
  | cons {line : List Char} {lines : List (List Char)} (hfeed : '\n' ∉ line)
      (hlines : AreLines lines) : AreLines ((line ++ ['\n']) :: lines)

theorem areLines_rawLines (cs : List Char) : AreLines (rawLines cs) := by
  induction cs with
  | nil => exact .nil
  | cons c cs ih =>
      rw [rawLines]
      split
      · exact @AreLines.cons [] _ List.not_mem_nil ih
      · rename_i hc
        have hfront {line : List Char} (hfeed : '\n' ∉ line) : '\n' ∉ c :: line := by
          simpa using ⟨Ne.symm hc, hfeed⟩
        generalize rawLines cs = lines at ih
        cases ih with
        | nil => exact .last (List.cons_ne_nil c []) (hfront List.not_mem_nil)
        | last _ hfeed => exact .last (List.cons_ne_nil c _) (hfront hfeed)
        | cons hfeed hlines => exact .cons (hfront hfeed) hlines

/-- A line in the middle ends with a line feed; one that has none is the last. -/
theorem AreLines.line_cases {before after : List (List Char)} {line : List Char}
    (h : AreLines (before ++ line :: after)) :
    (∃ start, line = start ++ ['\n']) ∨ after = [] ∧ '\n' ∉ line := by
  generalize hlines : before ++ line :: after = lines at h
  induction h generalizing before with
  | nil => simp at hlines
  | last hne hfeed =>
      cases before with
      | nil =>
          obtain ⟨rfl, rfl⟩ := List.cons.inj hlines
          exact .inr ⟨rfl, hfeed⟩
      | cons first before => simp at hlines
  | cons hfeed _ ih =>
      cases before with
      | nil =>
          obtain ⟨rfl, -⟩ := List.cons.inj hlines
          exact .inl ⟨_, rfl⟩
      | cons first before => exact ih (List.cons.inj hlines).2

theorem rawLines_of_notMem {line : List Char} (hne : line ≠ []) (hfeed : '\n' ∉ line) :
    rawLines line = [line] := by
  induction line with
  | nil => exact absurd rfl hne
  | cons c line ih =>
      rw [List.mem_cons, not_or] at hfeed
      rw [rawLines, if_neg (Ne.symm hfeed.1)]
      cases line with
      | nil => rfl
      | cons d line => rw [ih (List.cons_ne_nil d line) hfeed.2]

/-- Lines that were put together are found again. -/
theorem AreLines.rawLines_flatten {lines : List (List Char)} (h : AreLines lines) :
    rawLines lines.flatten = lines := by
  induction h with
  | nil => rfl
  | last hne hfeed => rw [List.flatten_singleton, rawLines_of_notMem hne hfeed]
  | cons hfeed _ ih =>
      rw [List.flatten_cons, List.append_assoc, List.singleton_append,
        rawLines_append_lineFeed hfeed, ih]

/-! ### Pieces of lines -/

theorem exists_of_prefix_rawLines {piece cs : List Char} (hpiece : piece ≠ [])
    (hfeed : '\n' ∉ piece) (h : piece <+: cs) :
    ∃ line lines, rawLines cs = line :: lines ∧ piece <+: line := by
  induction piece generalizing cs with
  | nil => exact absurd rfl hpiece
  | cons c piece ih =>
      obtain ⟨rest, rfl⟩ := h
      rw [List.mem_cons, not_or] at hfeed
      rw [List.cons_append, rawLines, if_neg (Ne.symm hfeed.1)]
      cases hlines : rawLines (piece ++ rest) with
      | nil =>
          have hnil := flatten_rawLines (piece ++ rest)
          rw [hlines, List.flatten_nil, eq_comm, List.append_eq_nil_iff] at hnil
          exact ⟨[c], [], rfl, by rw [hnil.1]⟩
      | cons line lines =>
          refine ⟨c :: line, lines, rfl, ?_⟩
          rw [List.cons_prefix_cons]
          refine ⟨rfl, ?_⟩
          by_cases hnil : piece = []
          · rw [hnil]
            exact List.nil_prefix
          · obtain ⟨line', lines', heq, hprefix⟩ := ih hnil hfeed.2 (List.prefix_append piece rest)
            rw [hlines] at heq
            cases heq
            exact hprefix

/-- A piece without line feeds is found in a text exactly when it is found in one of its lines. -/
theorem isInfix_iff_rawLines {piece : List Char} (hpiece : piece ≠ []) (hfeed : '\n' ∉ piece)
    (cs : List Char) : piece <:+: cs ↔ ∃ line ∈ rawLines cs, piece <:+: line := by
  constructor
  · intro h
    induction cs with
    | nil => exact absurd (List.eq_nil_of_infix_nil h) hpiece
    | cons c cs ih =>
        rcases List.infix_cons_iff.mp h with hprefix | hinfix
        · obtain ⟨line, lines, hlines, hline⟩ := exists_of_prefix_rawLines hpiece hfeed hprefix
          exact ⟨line, by rw [hlines]; exact List.mem_cons_self, hline.isInfix⟩
        · obtain ⟨line, hline, hinside⟩ := ih hinfix
          rw [rawLines]
          split
          · exact ⟨line, List.mem_cons_of_mem _ hline, hinside⟩
          · split
            · rename_i hnil
              rw [hnil] at hline
              cases hline
            · rename_i first lines heq
              rw [heq] at hline
              rcases List.mem_cons.mp hline with rfl | hline
              · exact ⟨c :: line, List.mem_cons_self, List.infix_cons hinside⟩
              · exact ⟨line, List.mem_cons_of_mem _ hline, hinside⟩
  · rintro ⟨line, hline, hinside⟩
    rw [← flatten_rawLines cs]
    exact hinside.trans (List.infix_of_mem_flatten hline)

/-- What a bare line has lost. -/
theorem eq_bareLine_append (line : List Char) :
    (line = bareLine line ∧ line.getLast? ≠ some '\n') ∨ line = bareLine line ++ ['\n'] ∨
      line = bareLine line ++ ['\r', '\n'] := by
  rw [bareLine]
  split
  · rename_i rest hline
    exact .inr (.inr (by simpa using congrArg List.reverse hline))
  · rename_i rest _ hline
    exact .inr (.inl (by simpa using congrArg List.reverse hline))
  · rename_i hline
    refine .inl ⟨rfl, fun hlast => ?_⟩
    obtain ⟨start, rfl⟩ := List.getLast?_eq_some_iff.mp hlast
    exact hline start.reverse (by simp)

/-- The bare line of a raw line has no line feed. -/
theorem lineFeed_notMem_bareLine {cs line : List Char} (h : line ∈ rawLines cs) :
    '\n' ∉ bareLine line := by
  obtain ⟨start, hstart, hline⟩ := exists_of_mem_rawLines h
  rcases eq_bareLine_append line with ⟨hbare, hlast⟩ | hbare | hbare
  · rcases hline with rfl | rfl
    · rwa [← hbare]
    · simp at hlast
  · rcases hline with rfl | rfl
    · exact absurd (by rw [hbare]; simp) hstart
    · rwa [← List.append_cancel_right hbare]
  · rcases hline with rfl | rfl
    · exact absurd (by rw [hbare]; simp) hstart
    · have hstart' : start = bareLine (start ++ ['\n']) ++ ['\r'] :=
        List.append_cancel_right (by simpa using hbare)
      intro hmem
      apply hstart
      rw [hstart']
      exact List.mem_append_left _ hmem

/-- A piece without line breaks is found in a line exactly when it is found in the bare line. -/
theorem isInfix_bareLine {piece : List Char} (hpiece : piece ≠ []) (hfeed : '\n' ∉ piece)
    (hreturn : '\r' ∉ piece) (line : List Char) :
    piece <:+: bareLine line ↔ piece <:+: line := by
  rcases eq_bareLine_append line with ⟨hbare, _⟩ | hbare | hbare
  · rw [← hbare]
  · conv_rhs => rw [hbare]
    rw [isInfix_append_singleton hpiece hfeed]
  · conv_rhs => rw [hbare]
    rw [List.append_cons, isInfix_append_singleton hpiece hfeed,
      isInfix_append_singleton hpiece hreturn]

theorem occursIn_bareLine {piece : List Char} (hpiece : piece ≠ []) (hfeed : '\n' ∉ piece)
    (hreturn : '\r' ∉ piece) (line : List Char) :
    occursIn piece (bareLine line) = occursIn piece line := by
  rw [Bool.eq_iff_iff, occursIn_iff_isInfix, occursIn_iff_isInfix]
  exact isInfix_bareLine hpiece hfeed hreturn line

end Text

theorem hasMarker_ofList_bareLine (line : List Char) :
    hasMarker (String.ofList (bareLine line)) = hasMarker (String.ofList line) := by
  rw [hasMarker, hasMarker, String.toList_ofList, String.toList_ofList]
  exact occursIn_bareLine (by decide) (by decide) (by decide) line

theorem hasClosingTag_ofList_bareLine (line : List Char) :
    hasClosingTag (String.ofList (bareLine line)) = hasClosingTag (String.ofList line) := by
  rw [hasClosingTag, hasClosingTag, String.toList_ofList, String.toList_ofList]
  exact occursIn_bareLine (by decide) (by decide) (by decide) line

/-- A text has the marker exactly when one of its lines has it. -/
theorem hasMarker_eq_any_textLines (text : String) :
    hasMarker text = (textLines text).any hasMarker := by
  have hlines : (textLines text).any hasMarker =
      (rawLines text.toList).any fun line => hasMarker (String.ofList line) := by
    simp only [textLines, bareLines, List.any_map, Function.comp_def, hasMarker_ofList_bareLine]
  rw [hlines, Bool.eq_iff_iff, List.any_eq_true, hasMarker, occursIn_iff_isInfix,
    isInfix_iff_rawLines (by decide) (by decide)]
  simp only [hasMarker, occursIn_iff_isInfix, String.toList_ofList]

/-- No line of a text has a line feed. -/
theorem lineFeed_notMem_of_mem_textLines {text line : String} (h : line ∈ textLines text) :
    '\n' ∉ line.toList := by
  obtain ⟨bare, hbare, rfl⟩ := List.mem_map.mp h
  obtain ⟨raw, hraw, rfl⟩ := List.mem_map.mp hbare
  rw [String.toList_ofList]
  exact lineFeed_notMem_bareLine hraw

/-- The raw lines of joined lines are the lines with their terminators. -/
theorem rawLines_joinLines {lines : List String} (h : ∀ line ∈ lines, '\n' ∉ line.toList)
    (ending : LineEnding) :
    rawLines (joinLines lines ending).toList =
      lines.map fun line => line.toList ++ ending.text.toList := by
  rw [joinLines, String.toList_ofList]
  induction lines with
  | nil => rfl
  | cons line lines ih =>
      obtain ⟨hline, hlines⟩ := List.forall_mem_cons.mp h
      rw [List.flatMap_cons, List.map_cons, ← ih hlines]
      cases ending with
      | lineFeed =>
          simpa [LineEnding.text] using rawLines_append_lineFeed hline
            (lines.flatMap fun line => line.toList ++ LineEnding.lineFeed.text.toList)
      | carriageReturnLineFeed =>
          have hreturn : '\n' ∉ line.toList ++ ['\r'] := by simpa using hline
          simpa [LineEnding.text] using rawLines_append_lineFeed hreturn
            (lines.flatMap fun line =>
              line.toList ++ LineEnding.carriageReturnLineFeed.text.toList)

end ResourceLanguage
