import ResourceLanguage.Proofs.ActiveCode.Layout
import ResourceLanguage.Proofs.Text.Position

/-!
Byte ranges of the active code, read in the whole text. A range that begins on a kept line has the
same place in both texts, and it has the same characters in both, white space apart, unless a
directive begins inside it.
-/

namespace ResourceLanguage

open ResourceLanguage.Text

namespace Text

theorem isBlank_space : isBlank ' ' = true := by decide +kernel

theorem isBlank_lineFeed : isBlank '\n' = true := by decide +kernel

theorem ne_of_isBlank {c d : Char} (hc : isBlank c = false) (hd : isBlank d = true) : c ≠ d := by
  rintro rfl
  rw [hc] at hd
  cases hd

/-- The characters of a text that are not white space. -/
def visible (cs : List Char) : List Char := cs.filter fun c => !isBlank c

theorem visible_append (cs ds : List Char) : visible (cs ++ ds) = visible cs ++ visible ds :=
  List.filter_append cs ds

theorem visible_eq_nil {cs : List Char} (h : ∀ c ∈ cs, isBlank c = true) : visible cs = [] := by
  rw [visible, List.filter_eq_nil_iff]
  intro c hc
  rw [h c hc]
  decide

theorem takeBytes_cons {n : Nat} (hn : n ≠ 0) (c : Char) (cs : List Char) :
    takeBytes n (c :: cs) = c :: takeBytes (n - c.utf8Size) cs := by
  rw [takeBytes]
  exact hn

theorem takeBytes_zero (cs : List Char) : takeBytes 0 cs = [] := by rw [takeBytes]

theorem takeBytes_append_eq (n : Nat) (cs ds : List Char) :
    takeBytes n (cs ++ ds) = takeBytes n cs ++ takeBytes (n - byteSize cs) ds := by
  induction cs generalizing n with
  | nil => cases n <;> rfl
  | cons c cs ih =>
      by_cases hn : n = 0
      · rw [hn, Nat.zero_sub, takeBytes_zero, takeBytes_zero, takeBytes_zero]
        rfl
      · rw [List.cons_append, takeBytes_cons hn, takeBytes_cons hn, ih, byteSize, Nat.sub_sub]
        rfl

theorem takeBytes_sublist (n : Nat) (cs : List Char) : (takeBytes n cs).Sublist cs := by
  induction cs generalizing n with
  | nil => cases n <;> exact .slnil
  | cons c cs ih =>
      by_cases hn : n = 0
      · rw [hn, takeBytes_zero]
        exact List.nil_sublist _
      · rw [takeBytes_cons hn]
        exact (ih _).cons_cons c

end Text

/-! ### Blanks in the place of characters -/

/-- The text `ds` is `cs` with blanks of the same size in the place of some characters. -/
inductive Blanked : List Char → List Char → Prop where
  | nil : Blanked [] []
  | keep (c : Char) {cs ds : List Char} (h : Blanked cs ds) : Blanked (c :: cs) (c :: ds)
  | blank (c : Char) {cs ds : List Char} (h : Blanked cs ds) :
      Blanked (c :: cs) (List.replicate c.utf8Size ' ' ++ ds)

namespace Blanked

theorem refl (cs : List Char) : Blanked cs cs := by
  induction cs with
  | nil => exact .nil
  | cons c cs ih => exact .keep c ih

theorem append {cs ds cs' ds' : List Char} (h : Blanked cs ds) (h' : Blanked cs' ds') :
    Blanked (cs ++ cs') (ds ++ ds') := by
  induction h with
  | nil => exact h'
  | keep c _ ih => exact .keep c ih
  | blank c _ ih =>
      rw [List.cons_append, List.append_assoc]
      exact .blank c ih

theorem blankLine (line : List Char) : Blanked line (blankLine line) := by
  induction line with
  | nil => exact .nil
  | cons c line ih =>
      rw [Text.blankLine, List.flatMap_cons]
      split
      · rename_i hc
        rw [hc]
        exact .keep _ ih
      · exact .blank c ih

theorem emitAll (state : PassState) (lines : List (List Char)) :
    Blanked lines.flatten (state.emitAll lines).flatten := by
  induction lines generalizing state with
  | nil => exact .nil
  | cons line lines ih =>
      rw [PassState.emitAll, List.flatten_cons, List.flatten_cons]
      refine .append ?_ (ih _)
      rw [PassState.emit]
      split
      · exact .refl line
      · exact .blankLine line

end Blanked

/-- Blanks in the place of characters leave fewer of them to see. -/
theorem Blanked.visible_takeBytes_sublist {cs ds : List Char} (h : Blanked cs ds) (n : Nat) :
    (visible (takeBytes n ds)).Sublist (visible (takeBytes n cs)) := by
  induction h generalizing n with
  | nil => exact .refl _
  | @keep c cs ds _ ih =>
      by_cases hn : n = 0
      · rw [hn, takeBytes_zero, takeBytes_zero]
      · rw [takeBytes_cons hn, takeBytes_cons hn]
        have hcons (es : List Char) : visible (c :: es) = visible [c] ++ visible es :=
          visible_append [c] es
        rw [hcons, hcons (takeBytes _ cs)]
        exact (ih _).append_left _
  | @blank c cs ds _ ih =>
      by_cases hn : n = 0
      · rw [hn, takeBytes_zero, takeBytes_zero]
      · have hblank : visible (takeBytes n (List.replicate c.utf8Size ' ')) = [] := by
          apply visible_eq_nil
          intro d hd
          rw [List.eq_of_mem_replicate ((takeBytes_sublist _ _).subset hd), isBlank_space]
        rw [takeBytes_append_eq, visible_append, hblank, byteSize_replicate_blank,
          List.nil_append, takeBytes_cons hn]
        exact (ih _).trans ((List.sublist_cons_self c _).filter _)

/-! ### Directives in a byte range -/

namespace Directive

/-- The indentation of a directive and the number sign after it. -/
theorem exists_of_ofLine? {line : List Char} (h : (ofLine? line).isSome = true) :
    ∃ rest, line = line.takeWhile isIndent ++ '#' :: rest := by
  have hline := (List.takeWhile_append_dropWhile (p := isIndent) (l := line)).symm
  unfold ofLine? at h
  split at h
  · rename_i rest hrest
    rw [hrest] at hline
    exact ⟨rest, hline⟩
  · cases h

theorem isBlank_of_isIndent {c : Char} (h : isIndent c = true) : isBlank c = true := by
  rw [isIndent, Bool.or_eq_true, beq_iff_eq, beq_iff_eq] at h
  rcases h with rfl | rfl <;> decide +kernel

theorem byteSize_indent_lt {line : List Char} (h : (ofLine? line).isSome = true) :
    byteSize (line.takeWhile isIndent) < byteSize line := by
  obtain ⟨rest, hline⟩ := exists_of_ofLine? h
  have hpos := byteSize_pos (List.cons_ne_nil '#' rest)
  conv_rhs => rw [hline, byteSize_append]
  omega

/-- The number sign is the first character of a directive that is not white space. -/
theorem visible_takeBytes_eq_nil_iff {line : List Char} (h : (ofLine? line).isSome = true)
    {n : Nat} :
    visible (takeBytes n line) = [] ↔ n ≤ byteSize (line.takeWhile isIndent) := by
  obtain ⟨rest, hline⟩ := exists_of_ofLine? h
  have hindent : visible (takeBytes n (line.takeWhile isIndent)) = [] := by
    apply visible_eq_nil
    intro c hc
    apply isBlank_of_isIndent
    exact List.all_eq_true.mp List.all_takeWhile c ((takeBytes_sublist _ _).subset hc)
  conv_lhs => rw [hline, takeBytes_append_eq, visible_append, hindent, List.nil_append]
  by_cases hn : n - byteSize (line.takeWhile isIndent) = 0
  · rw [hn, takeBytes_zero]
    exact ⟨fun _ => Nat.le_of_sub_eq_zero hn, fun _ => rfl⟩
  · have hsign (cs : List Char) : visible ('#' :: cs) = '#' :: visible cs := rfl
    rw [takeBytes_cons hn, hsign]
    exact ⟨fun hnil => absurd hnil (List.cons_ne_nil _ _), fun hle => by omega⟩

end Directive

/-- The offsets of the number signs of directives, for lines that begin at an offset. -/
def signOffsets (offset : Nat) : List (List Char) → List Nat
  | [] => []
  | line :: lines =>
      (if (Directive.ofLine? line).isSome then
        [offset + byteSize (line.takeWhile Directive.isIndent)]
      else []) ++ signOffsets (offset + byteSize line) lines

/-- Whether a directive begins inside a byte range of a text. -/
def crossesDirective (text : List Char) (span : Span) : Bool :=
  (signOffsets 0 (rawLines text)).any span.contains

theorem signOffsets_append (offset : Nat) (lines lines' : List (List Char)) :
    signOffsets offset (lines ++ lines') =
      signOffsets offset lines ++ signOffsets (offset + byteSize lines.flatten) lines' := by
  induction lines generalizing offset with
  | nil => rfl
  | cons line lines ih =>
      rw [List.cons_append, signOffsets, signOffsets, ih, List.flatten_cons, byteSize_append,
        List.append_assoc, Nat.add_assoc]

theorem of_mem_signOffsets {offset sign : Nat} {lines : List (List Char)}
    (h : sign ∈ signOffsets offset lines) :
    offset ≤ sign ∧ sign < offset + byteSize lines.flatten := by
  induction lines generalizing offset with
  | nil => exact absurd h List.not_mem_nil
  | cons line lines ih =>
      rw [List.flatten_cons, byteSize_append]
      rw [signOffsets] at h
      rcases List.mem_append.mp h with h | h
      · split at h
        · rename_i hdirective
          have hlt := Directive.byteSize_indent_lt hdirective
          rw [List.mem_singleton.mp h]
          omega
        · exact absurd h List.not_mem_nil
      · have := ih h
        omega

namespace PassState

/-- Up to the number sign of the first directive, active code has the characters of the whole text.
From there on it has fewer. -/
theorem visible_takeBytes_emitAll_iff {state : PassState} (hactive : state.active = true)
    (lines : List (List Char)) (offset stop : Nat) :
    visible (takeBytes (stop - offset) lines.flatten) =
        visible (takeBytes (stop - offset) (state.emitAll lines).flatten) ↔
      ∀ sign ∈ signOffsets offset lines, stop ≤ sign := by
  induction lines generalizing offset with
  | nil => exact ⟨fun _ sign hsign => absurd hsign List.not_mem_nil, fun _ => rfl⟩
  | cons line lines ih =>
      rw [emitAll, List.flatten_cons, List.flatten_cons, takeBytes_append_eq, takeBytes_append_eq,
        byteSize_emit, visible_append, visible_append, Nat.sub_sub, signOffsets]
      cases hline : Directive.ofLine? line with
      | none =>
          rw [emit_of_plain hline hactive, state.afterLine_of_plain hline,
            List.append_cancel_left_eq]
          exact ih _
      | some directive =>
          have hdirective : (Directive.ofLine? line).isSome = true := by rw [hline]; rfl
          have hblank : visible (takeBytes (stop - offset) (state.emit line)) = [] := by
            rw [state.emit_of_directive hline]
            apply visible_eq_nil
            intro c hc
            rcases of_mem_blankLine ((takeBytes_sublist _ _).subset hc) with rfl | rfl
            · exact isBlank_space
            · exact isBlank_lineFeed
          have hindent := Directive.byteSize_indent_lt hdirective
          rw [hblank, List.nil_append, if_pos Option.isSome_some, List.singleton_append,
            List.forall_mem_cons]
          constructor
          · intro heq
            -- The active code has no more than the text after the line, so the line has nothing.
            have hfewer := ((Blanked.emitAll (state.afterLine line) lines).visible_takeBytes_sublist
              (stop - (offset + byteSize line))).length_le
            have hlength := congrArg List.length heq
            rw [List.length_append] at hlength
            have hnothing : visible (takeBytes (stop - offset) line) = [] :=
              List.eq_nil_of_length_eq_zero (by omega)
            rw [Directive.visible_takeBytes_eq_nil_iff hdirective] at hnothing
            refine ⟨by omega, fun sign hsign => ?_⟩
            have := (of_mem_signOffsets hsign).1
            omega
          · rintro ⟨hle, -⟩
            have hnone : stop - (offset + byteSize line) = 0 := by omega
            rw [(Directive.visible_takeBytes_eq_nil_iff hdirective).mpr (by omega), hnone,
              takeBytes_zero, takeBytes_zero]
            rfl

end PassState

/-! ### Ranges that begin on a kept line -/

/-- A place in the active code that is not white space: the line is kept in both texts, at the same
offset. -/
theorem exists_line_of_activeCode {text front back : List Char} {symbols : Symbols} {c : Char}
    (h : activeCode text symbols = front ++ c :: back) (hblank : isBlank c = false) :
    ∃ before p q after, rawLines text = before ++ (p ++ c :: q) :: after ∧
      Directive.ofLine? (p ++ c :: q) = none ∧
      ((PassState.initial symbols).afterLines before).active = true ∧
      front = ((PassState.initial symbols).emitAll before).flatten ++ p ∧
      back = q ++ (((PassState.initial symbols).afterLines before).emitAll after).flatten :=
  PassState.exists_kept_line h (ne_of_isBlank hblank isBlank_space)
    (ne_of_isBlank hblank isBlank_lineFeed)

/-- What is not white space in the active code stands in the whole text at the same offset. -/
theorem exists_append_of_activeCode {text front back : List Char} {symbols : Symbols} {c : Char}
    (h : activeCode text symbols = front ++ c :: back) (hblank : isBlank c = false) :
    ∃ front' back', text = front' ++ c :: back' ∧ byteSize front' = byteSize front := by
  obtain ⟨before, p, q, after, hlines, -, -, rfl, -⟩ := exists_line_of_activeCode h hblank
  refine ⟨before.flatten ++ p, q ++ after.flatten, ?_, ?_⟩
  · rw [← flatten_rawLines text, hlines]
    simp
  · rw [byteSize_append, byteSize_append, PassState.byteSize_flatten_emitAll]

/-- The offsets at a character of the active code that is not white space have the line and column
that they have in the whole text. -/
theorem ofOffset_activeCode (file : String) {text front back : List Char} {symbols : Symbols}
    {c : Char} (h : activeCode text symbols = front ++ c :: back) (hblank : isBlank c = false)
    {offset : Nat} (hle : byteSize front ≤ offset) (hge : offset ≤ byteSize (front ++ [c])) :
    Location.ofOffset file (activeCode text symbols) offset =
      Location.ofOffset file text offset := by
  obtain ⟨before, p, q, after, hlines, hplain, hactive, rfl, -⟩ :=
    exists_line_of_activeCode h hblank
  obtain ⟨rest, -, htext, hemitted⟩ := PassState.positionLines_emitAll (areLines_rawLines text)
  rw [flatten_rawLines, hlines, List.append_assoc, List.cons_append] at htext
  simp only [byteSize_append, PassState.byteSize_flatten_emitAll] at hle hge
  obtain ⟨inside, rfl⟩ := Nat.exists_eq_add_of_le (Nat.le_trans (Nat.le_add_right _ _) hle)
  -- The offset is inside the line, or at its end if that is the end of the text.
  have hinside : inside < byteSize (p ++ c :: q) ∨ after ++ rest = [] := by
    cases q with
    | nil =>
        refine .inr (eq_nil_of_positionLines htext ?_)
        have hline : p ++ [c] ∈ rawLines text := by simp [hlines]
        obtain ⟨start, hfeed, hstart | hstart⟩ := exists_of_mem_rawLines hline
        · rwa [hstart]
        · have hlast := congrArg List.getLast? hstart
          simp only [List.getLast?_append, List.getLast?_singleton, Option.some_or,
            Option.some_inj] at hlast
          exact absurd hlast (ne_of_isBlank hblank isBlank_lineFeed)
    | cons d q =>
        have := byteSize_pos (List.cons_ne_nil d q)
        simp only [byteSize_append, byteSize] at hge this ⊢
        exact .inl (by omega)
  have hwhole : lineAt (positionLines text) (byteSize before.flatten + inside) =
      (before.length, p ++ c :: q, inside) := by
    rw [htext]
    exact lineAt_append before (after ++ rest) hinside
  have halone : lineAt (positionLines (activeCode text symbols))
      (byteSize before.flatten + inside) = (before.length, p ++ c :: q, inside) := by
    rw [activeCode, hemitted, hlines, PassState.emitAll_append, PassState.emitAll,
      PassState.emit_of_plain hplain hactive, List.append_assoc, List.cons_append]
    have := lineAt_append ((PassState.initial symbols).emitAll before)
      ((((PassState.initial symbols).afterLines before).afterLine (p ++ c :: q)).emitAll after ++
        rest) (hinside.imp_right fun hnil => ?_)
    · rwa [PassState.byteSize_flatten_emitAll, PassState.length_emitAll] at this
    · obtain ⟨rfl, rfl⟩ := List.append_eq_nil_iff.mp hnil
      rfl
  rw [Location.ofOffset, Location.ofOffset, hwhole, halone]

theorem slice_of_append {front back : List Char} {span : Span} (h : byteSize front = span.start) :
    slice (front ++ back) span = takeBytes (span.stop - span.start) back := by
  rw [slice, ← h, dropBytes_append]

/-- A byte range that begins on a kept line and does not leave it has the same text in both. -/
theorem slice_activeCode {text front back : List Char} {symbols : Symbols} {c : Char}
    {span : Span} (h : activeCode text symbols = front ++ c :: back) (hblank : isBlank c = false)
    (hstart : byteSize front = span.start) (hfeed : '\n' ∉ slice (activeCode text symbols) span) :
    slice text span = slice (activeCode text symbols) span := by
  obtain ⟨before, p, q, after, hlines, -, -, rfl, rfl⟩ := exists_line_of_activeCode h hblank
  have hstart' : byteSize (before.flatten ++ p) = span.start := by
    rw [← hstart, byteSize_append, byteSize_append, PassState.byteSize_flatten_emitAll]
  have htext : text = (before.flatten ++ p) ++ (c :: q ++ after.flatten) := by
    rw [← flatten_rawLines text, hlines]
    simp
  rw [h, slice_of_append hstart, ← List.cons_append, takeBytes_append_eq] at hfeed ⊢
  rw [htext, slice_of_append hstart', takeBytes_append_eq]
  have hline : AreLines (before ++ (p ++ c :: q) :: after) := hlines ▸ areLines_rawLines text
  rcases hline.line_cases with ⟨start, hline⟩ | ⟨rfl, -⟩
  · -- The line goes on to its line feed, so the range ends before that.
    obtain ⟨rest, hrest⟩ : ∃ rest, c :: q = rest ++ ['\n'] := by
      have hlast := congrArg List.getLast? hline
      rw [List.getLast?_append_of_ne_nil _ (List.cons_ne_nil c q), List.getLast?_concat] at hlast
      exact List.getLast?_eq_some_iff.mp hlast
    have hnone : span.stop - span.start - byteSize (c :: q) = 0 := by
      by_contra hne
      apply hfeed
      rw [hrest, List.mem_append, takeBytes_append_eq, List.mem_append]
      refine .inl (.inr ?_)
      rw [hrest, byteSize_append] at hne
      rw [takeBytes_cons (by omega)]
      exact List.mem_cons_self
    rw [hnone, takeBytes_zero, takeBytes_zero]
  · rfl

/-- A byte range that begins on a kept line shows no more in the active code than in the whole
text. -/
theorem visible_slice_sublist {text front back : List Char} {symbols : Symbols} {c : Char}
    {span : Span} (h : activeCode text symbols = front ++ c :: back) (hblank : isBlank c = false)
    (hstart : byteSize front = span.start) :
    (visible (slice (activeCode text symbols) span)).Sublist (visible (slice text span)) := by
  obtain ⟨before, p, q, after, hlines, -, -, rfl, rfl⟩ := exists_line_of_activeCode h hblank
  have hstart' : byteSize (before.flatten ++ p) = span.start := by
    rw [← hstart, byteSize_append, byteSize_append, PassState.byteSize_flatten_emitAll]
  have htext : text = (before.flatten ++ p) ++ (c :: q ++ after.flatten) := by
    rw [← flatten_rawLines text, hlines]
    simp
  rw [h, slice_of_append hstart, htext, slice_of_append hstart', ← List.cons_append]
  exact ((Blanked.refl _).append (.emitAll _ after)).visible_takeBytes_sublist _

/-- It shows the same in both texts exactly if no directive begins inside it. -/
theorem visible_slice_activeCode_iff {text front back : List Char} {symbols : Symbols} {c : Char}
    {span : Span} (h : activeCode text symbols = front ++ c :: back) (hblank : isBlank c = false)
    (hstart : byteSize front = span.start) :
    visible (slice text span) = visible (slice (activeCode text symbols) span) ↔
      crossesDirective text span = false := by
  obtain ⟨before, p, q, after, hlines, hplain, hactive, rfl, rfl⟩ :=
    exists_line_of_activeCode h hblank
  rw [byteSize_append, PassState.byteSize_flatten_emitAll] at hstart
  have htext : text = (before.flatten ++ p) ++ (c :: q ++ after.flatten) := by
    rw [← flatten_rawLines text, hlines]
    simp
  have hsigns : signOffsets 0 (rawLines text) =
      signOffsets 0 before ++ signOffsets (span.start + byteSize (c :: q)) after := by
    rw [hlines, signOffsets_append, signOffsets, hplain, ← hstart, byteSize_append]
    simp [Nat.add_assoc]
  have hcrosses : crossesDirective text span = false ↔
      ∀ sign ∈ signOffsets (span.start + byteSize (c :: q)) after, span.stop ≤ sign := by
    rw [crossesDirective, hsigns, List.any_append, Bool.or_eq_false_iff, List.any_eq_false,
      List.any_eq_false]
    constructor
    · rintro ⟨-, hlater⟩ sign hsign
      have hnot := hlater sign hsign
      have hle := (of_mem_signOffsets hsign).1
      simp only [Span.contains, Bool.and_eq_true, decide_eq_true_eq] at hnot
      omega
    · intro hlater
      refine ⟨fun sign hsign => ?_, fun sign hsign => ?_⟩
      · have hlt := (of_mem_signOffsets hsign).2
        simp only [Span.contains, Bool.and_eq_true, decide_eq_true_eq]
        omega
      · have hle := hlater sign hsign
        simp only [Span.contains, Bool.and_eq_true, decide_eq_true_eq]
        omega
  have hstart' : byteSize (((PassState.initial symbols).emitAll before).flatten ++ p) =
      span.start := by
    rw [byteSize_append, PassState.byteSize_flatten_emitAll, hstart]
  rw [hcrosses, ← PassState.visible_takeBytes_emitAll_iff hactive, h, slice_of_append hstart',
    htext, slice_of_append (by rw [byteSize_append, hstart]), ← List.cons_append,
    takeBytes_append_eq, takeBytes_append_eq, visible_append, visible_append,
    List.append_cancel_left_eq, Nat.sub_sub]

end ResourceLanguage
