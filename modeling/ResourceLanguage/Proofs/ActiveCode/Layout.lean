import ResourceLanguage.Proofs.ActiveCode.Simulation
import ResourceLanguage.Proofs.Condition.Writing
import ResourceLanguage.Proofs.Resource.Lines
import ResourceLanguage.Proofs.Text.Bytes

/-!
The layout of active code. The pass works line by line and never joins or splits lines: every line
becomes itself or as many spaces as it has bytes, with its line feed at the end. Line feeds
therefore keep their offsets, and a second pass finds nothing left to blank.
-/

namespace ResourceLanguage

open ResourceLanguage.Text

namespace Text

/-! ### Lines by position -/

theorem positionLines_of_notMem {line : List Char} (hfeed : '\n' ∉ line) :
    positionLines line = [line] := by
  induction line with
  | nil => rfl
  | cons c line ih =>
      rw [List.mem_cons, not_or] at hfeed
      rw [positionLines, if_neg (Ne.symm hfeed.1), ih hfeed.2]

theorem positionLines_append_lineFeed {line : List Char} (hfeed : '\n' ∉ line)
    (rest : List Char) :
    positionLines (line ++ '\n' :: rest) = (line ++ ['\n']) :: positionLines rest := by
  induction line with
  | nil => simp [positionLines]
  | cons c line ih =>
      rw [List.mem_cons, not_or] at hfeed
      simp only [List.cons_append, positionLines, ih hfeed.2, if_neg (Ne.symm hfeed.1)]

/-! ### Blank lines -/

theorem blankLine_append (cs ds : List Char) :
    blankLine (cs ++ ds) = blankLine cs ++ blankLine ds := List.flatMap_append

theorem blankLine_of_notMem {line : List Char} (hfeed : '\n' ∉ line) :
    blankLine line = List.replicate (byteSize line) ' ' := by
  induction line with
  | nil => rfl
  | cons c line ih =>
      rw [List.mem_cons, not_or] at hfeed
      rw [blankLine, List.flatMap_cons, if_neg (Ne.symm hfeed.1), byteSize, List.replicate_add]
      congr 1
      exact ih hfeed.2

theorem blankLine_append_lineFeed {line : List Char} (hfeed : '\n' ∉ line) :
    blankLine (line ++ ['\n']) = List.replicate (byteSize line) ' ' ++ ['\n'] := by
  rw [blankLine_append, blankLine_of_notMem hfeed]
  rfl

theorem lineFeed_notMem_replicate (n : Nat) : '\n' ∉ List.replicate n ' ' := by
  intro h
  exact absurd (List.eq_of_mem_replicate h) (by decide)

@[simp] theorem byteSize_blankLine (line : List Char) :
    byteSize (blankLine line) = byteSize line := by
  induction line with
  | nil => rfl
  | cons c line ih =>
      have hcons : blankLine (c :: line) =
          (if c = '\n' then ['\n'] else List.replicate c.utf8Size ' ') ++ blankLine line := rfl
      rw [hcons, byteSize_append, ih, byteSize]
      split
      · rename_i hc
        rw [hc]
        rfl
      · rw [byteSize_replicate_blank]

/-- A line of spaces only, up to its line feed. -/
def IsSpaces (line : List Char) : Prop :=
  ∃ n, line = List.replicate n ' ' ∨ line = List.replicate n ' ' ++ ['\n']

/-- A line of spaces is no directive. -/
theorem IsSpaces.ofLine? {line : List Char} (h : IsSpaces line) :
    Directive.ofLine? line = none := by
  have hdrop (n : Nat) (rest : List Char) :
      (List.replicate n ' ' ++ rest).dropWhile Directive.isIndent =
        rest.dropWhile Directive.isIndent := by
    rw [List.dropWhile_append_of_pos]
    intro c hc
    rw [List.eq_of_mem_replicate hc]
    rfl
  obtain ⟨n, rfl | rfl⟩ := h
  · have := hdrop n []
    rw [List.append_nil] at this
    rw [Directive.ofLine?, this]
    rfl
  · rw [Directive.ofLine?, hdrop]
    rfl

theorem isSpaces_blankLine {cs line : List Char} (h : line ∈ rawLines cs) :
    IsSpaces (blankLine line) := by
  obtain ⟨start, hfeed, rfl | rfl⟩ := exists_of_mem_rawLines h
  · exact ⟨_, .inl (blankLine_of_notMem hfeed)⟩
  · exact ⟨_, .inr (blankLine_append_lineFeed hfeed)⟩

end Text

/-! ### One line of the pass -/

namespace PassState

theorem emit_cases (state : PassState) (line : List Char) :
    (state.emit line = line ∧ Directive.ofLine? line = none ∧ state.active = true) ∨
      state.emit line = blankLine line := by
  rw [emit]
  split
  · rename_i hkept
    rw [Bool.and_eq_true, Option.isNone_iff_eq_none] at hkept
    exact .inl ⟨rfl, hkept⟩
  · exact .inr rfl

theorem emit_of_plain {state : PassState} {line : List Char}
    (hplain : Directive.ofLine? line = none) (hactive : state.active = true) :
    state.emit line = line := by
  simp [emit, hplain, hactive]

theorem afterLine_of_plain (state : PassState) {line : List Char}
    (hplain : Directive.ofLine? line = none) : state.afterLine line = state := by
  simp [afterLine, hplain]

@[simp] theorem byteSize_emit (state : PassState) (line : List Char) :
    byteSize (state.emit line) = byteSize line := by
  rcases state.emit_cases line with ⟨hemit, -⟩ | hemit
  · rw [hemit]
  · rw [hemit, byteSize_blankLine]

theorem lineFeed_notMem_emit (state : PassState) {line : List Char} (hfeed : '\n' ∉ line) :
    '\n' ∉ state.emit line := by
  rcases state.emit_cases line with ⟨hemit, -⟩ | hemit
  · rwa [hemit]
  · rw [hemit, blankLine_of_notMem hfeed]
    exact lineFeed_notMem_replicate _

theorem exists_emit_append_lineFeed (state : PassState) {line : List Char}
    (hfeed : '\n' ∉ line) :
    ∃ out, state.emit (line ++ ['\n']) = out ++ ['\n'] ∧ '\n' ∉ out := by
  rcases state.emit_cases (line ++ ['\n']) with ⟨hemit, -⟩ | hemit
  · exact ⟨line, hemit, hfeed⟩
  · exact ⟨_, hemit.trans (blankLine_append_lineFeed hfeed), lineFeed_notMem_replicate _⟩

theorem emit_ne_nil (state : PassState) {line : List Char} (hne : line ≠ []) :
    state.emit line ≠ [] := by
  intro hnil
  have hsize := state.byteSize_emit line
  have hpos := byteSize_pos hne
  rw [hnil, byteSize] at hsize
  omega

/-! ### The lines of active code -/

@[simp] theorem length_emitAll (state : PassState) (lines : List (List Char)) :
    (state.emitAll lines).length = lines.length := by
  induction lines generalizing state with
  | nil => rfl
  | cons line lines ih => rw [emitAll, List.length_cons, List.length_cons, ih]

@[simp] theorem byteSize_flatten_emitAll (state : PassState) (lines : List (List Char)) :
    byteSize (state.emitAll lines).flatten = byteSize lines.flatten := by
  induction lines generalizing state with
  | nil => rfl
  | cons line lines ih =>
      rw [emitAll, List.flatten_cons, List.flatten_cons, byteSize_append, byteSize_append,
        byteSize_emit, ih]

theorem areLines_emitAll (state : PassState) {lines : List (List Char)} (h : AreLines lines) :
    AreLines (state.emitAll lines) := by
  induction h generalizing state with
  | nil => exact .nil
  | last hne hfeed => exact .last (state.emit_ne_nil hne) (state.lineFeed_notMem_emit hfeed)
  | cons hfeed _ ih =>
      obtain ⟨out, hout, hfeed⟩ := state.exists_emit_append_lineFeed hfeed
      rw [emitAll, hout]
      exact .cons hfeed (ih _)

/-- Lines as they are counted from one: both texts have the same one after the last line feed. -/
theorem positionLines_emitAll {lines : List (List Char)} (h : AreLines lines) :
    ∃ rest, (rest = [] ∨ rest = [[]]) ∧ positionLines lines.flatten = lines ++ rest ∧
      ∀ state : PassState,
        positionLines (state.emitAll lines).flatten = state.emitAll lines ++ rest := by
  induction h with
  | nil => exact ⟨[[]], .inr rfl, rfl, fun _ => rfl⟩
  | @last line hne hfeed =>
      refine ⟨[], .inl rfl, ?_, fun state => ?_⟩
      · rw [List.flatten_singleton, positionLines_of_notMem hfeed]
        rfl
      · rw [emitAll, emitAll, List.flatten_singleton,
          positionLines_of_notMem (state.lineFeed_notMem_emit hfeed)]
        rfl
  | @cons line lines hfeed _ ih =>
      obtain ⟨rest, hrest, hlines, hemitted⟩ := ih
      refine ⟨rest, hrest, ?_, fun state => ?_⟩
      · rw [List.flatten_cons, List.append_assoc, List.singleton_append,
          positionLines_append_lineFeed hfeed, hlines]
        rfl
      · obtain ⟨out, hout, hfeed⟩ := state.exists_emit_append_lineFeed hfeed
        rw [emitAll, hout, List.flatten_cons, List.append_assoc, List.singleton_append,
          positionLines_append_lineFeed hfeed, hemitted]
        rfl

end PassState

theorem rawLines_activeCode (code : List Char) (symbols : Symbols) :
    rawLines (activeCode code symbols) = (PassState.initial symbols).emitAll (rawLines code) :=
  (PassState.areLines_emitAll _ (areLines_rawLines code)).rawLines_flatten

/-! ### A second pass -/

namespace PassState

theorem ofLine?_of_mem_emitAll (state : PassState) {lines : List (List Char)}
    (hspaces : ∀ line ∈ lines, IsSpaces (blankLine line)) :
    ∀ out ∈ state.emitAll lines, Directive.ofLine? out = none := by
  induction lines generalizing state with
  | nil => exact fun out hout => absurd hout List.not_mem_nil
  | cons line lines ih =>
      obtain ⟨hline, hlines⟩ := List.forall_mem_cons.mp hspaces
      refine List.forall_mem_cons.mpr ⟨?_, ih _ hlines⟩
      rcases state.emit_cases line with ⟨hemit, hplain, -⟩ | hemit
      · rw [hemit, hplain]
      · rw [hemit, hline.ofLine?]

/-- Plain lines of active code stay as they are. -/
theorem emitAll_of_plain {state : PassState} (hactive : state.active = true)
    {lines : List (List Char)} (hplain : ∀ line ∈ lines, Directive.ofLine? line = none) :
    state.emitAll lines = lines := by
  induction lines with
  | nil => rfl
  | cons line lines ih =>
      obtain ⟨hline, hlines⟩ := List.forall_mem_cons.mp hplain
      rw [emitAll, emit_of_plain hline hactive, state.afterLine_of_plain hline, ih hlines]

end PassState

/-- A second pass changes nothing, whatever symbols it begins with. -/
theorem activeCode_activeCode (code : List Char) (symbols symbols' : Symbols) :
    activeCode (activeCode code symbols) symbols' = activeCode code symbols := by
  have hplain : ∀ out ∈ (PassState.initial symbols).emitAll (rawLines code),
      Directive.ofLine? out = none :=
    PassState.ofLine?_of_mem_emitAll _ fun _ hline => isSpaces_blankLine hline
  rw [activeCode, rawLines_activeCode, PassState.emitAll_of_plain rfl hplain]
  rfl

/-! ### What stands in the active code -/

namespace PassState

theorem of_mem_blankLine {line : List Char} {c : Char} (h : c ∈ blankLine line) :
    c = ' ' ∨ c = '\n' := by
  obtain ⟨d, -, hc⟩ := List.mem_flatMap.mp h
  split at hc
  · exact .inr (List.mem_singleton.mp hc)
  · exact .inl (List.eq_of_mem_replicate hc)

/-- A character of the active code that is neither a space nor a line feed stands on a plain line of
active code, and so does all of its line. -/
theorem exists_kept_line {state : PassState} {lines : List (List Char)} {front back : List Char}
    {c : Char} (h : (state.emitAll lines).flatten = front ++ c :: back) (hspace : c ≠ ' ')
    (hfeed : c ≠ '\n') :
    ∃ before p q after, lines = before ++ (p ++ c :: q) :: after ∧
      Directive.ofLine? (p ++ c :: q) = none ∧ (state.afterLines before).active = true ∧
      front = (state.emitAll before).flatten ++ p ∧
      back = q ++ ((state.afterLines before).emitAll after).flatten := by
  induction lines generalizing state front with
  | nil => exact absurd h.symm (by simp [emitAll])
  | cons line lines ih =>
      have hlater {rest : List Char} (hfront : front = state.emit line ++ rest)
          (hrest : ((state.afterLine line).emitAll lines).flatten = rest ++ c :: back) :
          ∃ before p q after, line :: lines = before ++ (p ++ c :: q) :: after ∧
            Directive.ofLine? (p ++ c :: q) = none ∧ (state.afterLines before).active = true ∧
            front = (state.emitAll before).flatten ++ p ∧
            back = q ++ ((state.afterLines before).emitAll after).flatten := by
        obtain ⟨before, p, q, after, rfl, hplain, hactive, rfl, hback⟩ := ih hrest
        refine ⟨line :: before, p, q, after, rfl, hplain, hactive, ?_, hback⟩
        rw [hfront, emitAll, List.flatten_cons, List.append_assoc]
      rw [emitAll, List.flatten_cons] at h
      rcases List.append_eq_append_iff.mp h with ⟨rest, hfront, hrest⟩ | ⟨rest, hline, hrest⟩
      · exact hlater hfront hrest
      · cases rest with
        | nil =>
            rw [List.append_nil] at hline
            exact @hlater [] (by rw [hline, List.append_nil]) hrest.symm
        | cons d q =>
            obtain ⟨rfl, rfl⟩ := List.cons.inj hrest
            have hmem : c ∈ state.emit line := by
              rw [hline]
              exact List.mem_append_right front List.mem_cons_self
            rcases state.emit_cases line with ⟨hemit, hplain, hactive⟩ | hemit
            · have hafter := state.afterLine_of_plain hplain
              rw [hline] at hemit
              subst hemit
              exact ⟨[], front, q, lines, rfl, hplain, hactive, rfl, by rw [hafter]; rfl⟩
            · rw [hemit] at hmem
              rcases of_mem_blankLine hmem with heq | heq
              · exact absurd heq hspace
              · exact absurd heq hfeed

end PassState

/-! ### The layout -/

/-- What may become of a line: it stays, or it becomes blank, and a directive becomes blank. -/
structure LaidOut (line out : List Char) : Prop where
  size : byteSize out = byteSize line
  text : out = line ∨ IsSpaces out
  directive : Directive.ofLine? line ≠ none → IsSpaces out

namespace PassState

theorem laidOut_emitAll (state : PassState) {lines : List (List Char)}
    (hspaces : ∀ line ∈ lines, IsSpaces (blankLine line)) :
    List.Forall₂ LaidOut lines (state.emitAll lines) := by
  induction lines generalizing state with
  | nil => exact .nil
  | cons line lines ih =>
      obtain ⟨hline, hlines⟩ := List.forall_mem_cons.mp hspaces
      refine .cons ⟨state.byteSize_emit line, ?_, ?_⟩ (ih _ hlines)
      · rcases state.emit_cases line with ⟨hemit, -⟩ | hemit
        · exact .inl hemit
        · exact .inr (hemit ▸ hline)
      · intro hdirective
        obtain ⟨directive, hsome⟩ := Option.ne_none_iff_exists'.mp hdirective
        rw [state.emit_of_directive hsome]
        exact hline

theorem feedsAlike_emitAll (state : PassState) (lines : List (List Char)) :
    FeedsAlike (lines.flatten.flatMap String.utf8EncodeChar)
      ((state.emitAll lines).flatten.flatMap String.utf8EncodeChar) := by
  induction lines generalizing state with
  | nil => exact .nil
  | cons line lines ih =>
      rw [emitAll, List.flatten_cons, List.flatten_cons, List.flatMap_append, List.flatMap_append]
      refine List.rel_append ?_ (ih _)
      rcases state.emit_cases line with ⟨hemit, -⟩ | hemit
      · rw [hemit]
        exact List.forall₂_same.mpr fun _ _ => Iff.rfl
      · rw [hemit]
        exact feedsAlike_blankLine line

end PassState

/-- An offset on a line that both texts have. -/
def OnKeptLine (code active : List Char) (offset : Nat) : Prop :=
  ∃ index line, (rawLines code)[index]? = some line ∧ (rawLines active)[index]? = some line ∧
    byteSize ((rawLines code).take index).flatten ≤ offset ∧
    offset ≤ byteSize ((rawLines code).take index).flatten + byteSize line

/-- A place between two characters of the active code is one of the whole text, if it is on a line
that was kept. -/
theorem exists_append_of_onKeptLine {code front back : List Char} {symbols : Symbols}
    (h : activeCode code symbols = front ++ back)
    (hkept : OnKeptLine code (activeCode code symbols) (byteSize front)) :
    ∃ front' back', code = front' ++ back' ∧ byteSize front' = byteSize front := by
  obtain ⟨index, line, hcode, hactive, hle, hge⟩ := hkept
  obtain ⟨before, after, hlines, rfl⟩ : ∃ before after,
      rawLines code = before ++ line :: after ∧ before.length = index := by
    obtain ⟨hlt, rfl⟩ := List.getElem?_eq_some_iff.mp hcode
    refine ⟨(rawLines code).take index, (rawLines code).drop (index + 1), ?_,
      List.length_take_of_le hlt.le⟩
    rw [← List.drop_eq_getElem_cons hlt, List.take_append_drop]
  have hbefore : (rawLines code).take before.length = before := by
    rw [hlines, List.take_left]
  rw [hbefore] at hle hge
  rw [rawLines_activeCode, hlines, PassState.emitAll_append, PassState.emitAll,
    List.getElem?_append_right (by simp)] at hactive
  simp only [PassState.length_emitAll, Nat.sub_self, List.getElem?_cons_zero,
    Option.some_inj] at hactive
  have htext : activeCode code symbols =
      ((PassState.initial symbols).emitAll before).flatten ++
        (line ++ ((((PassState.initial symbols).afterLines before).afterLine line).emitAll
          after).flatten) := by
    rw [activeCode, hlines, PassState.emitAll_append, List.flatten_append, PassState.emitAll,
      hactive, List.flatten_cons]
  obtain ⟨p, rfl, hrest⟩ :=
    exists_eq_append_of_byteSize_le (htext.symm.trans h) (by simpa using hle)
  rw [byteSize_append, PassState.byteSize_flatten_emitAll] at hge
  obtain ⟨q, rfl, -⟩ := exists_eq_append_of_byteSize_le hrest.symm (by omega)
  refine ⟨before.flatten ++ p, q ++ after.flatten, ?_, ?_⟩
  · rw [← flatten_rawLines code, hlines]
    simp
  · rw [byteSize_append, byteSize_append, PassState.byteSize_flatten_emitAll]

/-- The active code around the opening of a section for a symbol that is not defined. -/
theorem activeCode_of_undefined {code opening : List Char} {before after : List (List Char)}
    (name : String) (symbols : Symbols) (hlines : rawLines code = before ++ opening :: after)
    (opens : Directive.ofLine? opening = some (.ifCondition name.toList))
    (hname : (Condition.symbol name).WellNamed) :
    let state := (PassState.initial symbols).afterLines before
    state.symbols.contains name = false →
      activeCode code symbols = ((PassState.initial symbols).emitAll before ++
        blankLine opening :: PassState.emitAll
          ⟨state.symbols, .opened state.active false :: state.sections⟩ after).flatten := by
  intro state hundefined
  have hholds : Condition.holds name.toList state.symbols = false := by
    rw [Condition.holds_symbol hname, hundefined]
  rw [activeCode, hlines, PassState.emitAll_append, PassState.emitAll,
    PassState.emit_of_directive _ opens, Nesting.afterLine_opening _ opens, hholds]

end ResourceLanguage
