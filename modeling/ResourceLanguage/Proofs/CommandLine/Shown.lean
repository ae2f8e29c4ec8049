import ResourceLanguage.CommandLine.Run
import ResourceLanguage.Proofs.Resource.Diff
import ResourceLanguage.Proofs.Text.Replacement

/-!
The diffs that a dry run prints, read back from its output. A reader takes the styles away, finds
the names of files in the two header lines of a diff, and passes over the lines of a hunk by the
counts in its head, so that no line of a file is taken for a header line. It finds the paths of the
plans that were previewed, and nothing else.
-/

namespace ResourceLanguage

open ResourceLanguage.Text

/-! ### Styles -/

namespace Text

/-- A text without escape sequences. `inside` says that one has begun. -/
def unstyledFrom (inside : Bool) : List Char → List Char
  | [] => []
  | c :: cs =>
      if inside then unstyledFrom (c != 'm') cs
      else if c = '\x1b' then unstyledFrom true cs
      else c :: unstyledFrom false cs

def unstyled : List Char → List Char := unstyledFrom false

theorem unstyled_append {text : List Char} (h : '\x1b' ∉ text) (rest : List Char) :
    unstyled (text ++ rest) = text ++ unstyled rest := by
  induction text with
  | nil => rfl
  | cons c text ih =>
      rw [List.mem_cons, not_or] at h
      rw [List.cons_append, unstyled, unstyledFrom, if_neg Bool.false_ne_true, if_neg (Ne.symm h.1)]
      exact congrArg (c :: ·) (ih h.2)

theorem head?_unstyled_cons {c : Char} (hc : c ≠ '\x1b') (cs : List Char) :
    (unstyled (c :: cs)).head? = some c := by
  rw [unstyled, unstyledFrom, if_neg Bool.false_ne_true, if_neg hc]
  rfl

theorem unstyledFrom_true {codes : List Char} (h : 'm' ∉ codes) (rest : List Char) :
    unstyledFrom true (codes ++ 'm' :: rest) = unstyled rest := by
  induction codes with
  | nil => rfl
  | cons c codes ih =>
      rw [List.mem_cons, not_or] at h
      have hc : (c != 'm') = true := bne_iff_ne.mpr (Ne.symm h.1)
      rw [List.cons_append, unstyledFrom, if_pos rfl, hc]
      exact ih h.2

/-- The numbers of styles are digits, with semicolons between them. -/
theorem notMem_codes {c : Char} (hc : c ≠ ';') (hcode : ∀ style : Style, c ∉ style.code.toList)
    (styles : List Style) : c ∉ (";".intercalate (styles.map Style.code)).toList := by
  induction styles with
  | nil => simp
  | cons style styles ih =>
      cases styles with
      | nil => simpa [String.intercalate_singleton] using hcode style
      | cons next styles =>
          rw [List.map_cons, List.map_cons, String.intercalate_cons_cons, ← List.map_cons,
            String.toList_append, String.toList_append, List.mem_append, List.mem_append]
          rintro ((hmem | hmem) | hmem)
          · exact hcode style hmem
          · exact hc (List.mem_singleton.mp hmem)
          · exact ih hmem

theorem unstyled_styleStart (styles : List Style) (rest : List Char) :
    unstyled ((styleStart styles).toList ++ rest) = unstyled rest := by
  have hlist : (styleStart styles).toList ++ rest =
      '\x1b' :: '[' :: ((";".intercalate (styles.map Style.code)).toList ++ 'm' :: rest) := by
    simp [styleStart]
  rw [hlist]
  refine unstyledFrom_true (notMem_codes (by decide) (fun style => ?_) styles) rest
  cases style <;> decide

theorem lineFeed_notMem_styleStart (styles : List Style) : '\n' ∉ (styleStart styles).toList := by
  have hcodes : '\n' ∉ (";".intercalate (styles.map Style.code)).toList := by
    refine notMem_codes (by decide) (fun style => ?_) styles
    cases style <;> decide
  rw [styleStart, String.toList_append, String.toList_append, List.mem_append, List.mem_append]
  rintro ((hmem | hmem) | hmem)
  · revert hmem
    decide
  · exact hcodes hmem
  · revert hmem
    decide

section Paint

variable (palette : Palette) (styles : List Style) {text : String}

/-- A painted text stands between sequences that begin and end its styles, if it is painted. -/
theorem paint_cases :
    palette.paint styles text = text ∨ palette.paint styles text = styleStart styles ++
      String.ofList (replaceAll styleReset.toList (styleReset ++ styleStart styles).toList
        text.toList) ++ styleReset := by
  rw [Palette.paint]
  split
  · exact .inr rfl
  · exact .inl rfl

theorem lineFeed_notMem_paint (h : '\n' ∉ text.toList) :
    '\n' ∉ (palette.paint styles text).toList := by
  have hstart := lineFeed_notMem_styleStart styles
  have hreset : '\n' ∉ styleReset.toList := by decide
  rcases paint_cases palette styles with hpaint | hpaint
  · rwa [hpaint]
  · rw [hpaint, String.toList_append, String.toList_append, String.toList_ofList, List.mem_append,
      List.mem_append]
    rintro ((hmem | hmem) | hmem)
    · exact hstart hmem
    · rcases mem_of_mem_replaceAll hmem with hmem | hmem
      · exact h hmem
      · rw [String.toList_append, List.mem_append] at hmem
        exact hmem.elim hreset hstart
    · exact hreset hmem

/-- Without styles a painted text begins as it did. -/
theorem head?_unstyled_paint {c : Char} {cs : List Char} (htext : text.toList = c :: cs)
    (hc : c ≠ '\x1b') (rest : List Char) :
    (unstyled ((palette.paint styles text).toList ++ rest)).head? = some c := by
  rcases paint_cases palette styles with hpaint | hpaint
  · rw [hpaint, htext]
    exact head?_unstyled_cons hc _
  · have hfound : styleReset.toList.isPrefixOf (c :: cs) = false := by
      simp [styleReset, List.isPrefixOf, Ne.symm hc]
    rw [hpaint, String.toList_append, String.toList_append, List.append_assoc, List.append_assoc,
      unstyled_styleStart, String.toList_ofList, htext, replaceAll_cons _ hfound]
    exact head?_unstyled_cons hc _

theorem unstyled_paint (h : '\x1b' ∉ text.toList) {rest : List Char} (hrest : '\x1b' ∉ rest) :
    unstyled ((palette.paint styles text).toList ++ rest) = text.toList ++ rest := by
  have hunstyled : unstyled rest = rest := by
    rw [← List.append_nil rest, unstyled_append hrest]
    rfl
  rcases paint_cases palette styles with hpaint | hpaint
  · rw [hpaint, unstyled_append h, hunstyled]
  · have hsame : replaceAll styleReset.toList (styleReset ++ styleStart styles).toList text.toList =
        text.toList := by
      have hpiece : StandsApart styleReset.toList := ⟨'\x1b', "[0m".toList, by decide, by decide⟩
      have hnone := @occurrences_of_notMem '\x1b' "[0m".toList text.toList h []
      rw [List.append_nil] at hnone
      exact (hpiece.replaceAll_eq_self_iff _ _).mpr (.inr hnone)
    rw [hpaint, hsame, String.toList_append, String.toList_append, String.toList_ofList,
      List.append_assoc, List.append_assoc, unstyled_styleStart, unstyled_append h]
    exact congrArg (text.toList ++ ·) hunstyled

end Paint

end Text

/-! ### Reading -/

namespace Diff

/-- The path in the two header lines of a diff. -/
def headerPath? (first second : List Char) : Option Path := do
  let old ← skip? "--- a/".toList first
  let new ← skip? "+++ b/".toList second
  if old = new then some (String.ofList new.dropLast) else none

/-- The paths in the header lines of diffs, when `before` is the line before, and when a hunk goes
on for `old` lines of the old text and `new` lines of the new one. -/
def pathsFrom (before : List Char) (old new : Nat) : List (List Char) → List Path
  | [] => []
  | line :: lines =>
      if old = 0 ∧ new = 0 then
        match headerPath? before line, readHead? line with
        | some path, _ => path :: pathsFrom line 0 0 lines
        | none, some (old, new) => pathsFrom line old.count new.count lines
        | none, none => pathsFrom line 0 0 lines
      else
        match line.head? with
        | some '-' => pathsFrom line (old - 1) new lines
        | some '+' => pathsFrom line old (new - 1) lines
        | _ => pathsFrom line (old - 1) (new - 1) lines

/-- The paths of the files whose diffs stand in a printed text. -/
def pathsIn (text : String) : List Path := pathsFrom [] 0 0 ((rawLines text.toList).map unstyled)

theorem skip?_eq_none {piece text : List Char} (h : text.head? ≠ piece.head?) (hne : piece ≠ []) :
    skip? piece text = none := by
  rw [skip?, if_neg]
  intro hprefix
  obtain ⟨rest, rfl⟩ := List.isPrefixOf_iff_prefix.mp hprefix
  exact h (List.head?_append_of_ne_nil piece hne)

theorem headerPath?_eq_none {first second : List Char} (h : second.head? ≠ some '+') :
    headerPath? first second = none := by
  have hskip : skip? "+++ b/".toList second = none := skip?_eq_none h (by decide)
  rw [headerPath?, hskip]
  cases skip? "--- a/".toList first <;> rfl

theorem readHead?_eq_none {line : List Char} (h : line.head? ≠ some '@') :
    readHead? line = none := by
  rw [readHead?, skip?_eq_none h (by decide)]
  rfl

theorem headerPath?_header (path : Path) :
    headerPath? ("--- a/" ++ path ++ "\n").toList ("+++ b/" ++ path ++ "\n").toList =
      some path := by
  have hlist (front : String) : (front ++ path ++ "\n").toList =
      front.toList ++ (path ++ "\n").toList := by
    rw [String.append_assoc, String.toList_append]
  rw [headerPath?, hlist, hlist, skip?_append, skip?_append]
  simp

/-- Lines at whose beginning no second header line stands. -/
def Fresh (lines : List (List Char)) : Prop := ∀ line ∈ lines.head?, line.head? ≠ some '+'

theorem pathsFrom_of_fresh {lines : List (List Char)} (h : Fresh lines) (before : List Char) :
    pathsFrom before 0 0 lines = pathsFrom [] 0 0 lines := by
  cases lines with
  | nil => rfl
  | cons line lines =>
      have hline : line.head? ≠ some '+' := h line rfl
      rw [pathsFrom, pathsFrom, headerPath?_eq_none hline, headerPath?_eq_none hline]

/-- Outside of hunks a line that neither ends a header nor begins a hunk is passed over. -/
theorem pathsFrom_cons {line : List Char} (hplus : line.head? ≠ some '+')
    (hat : line.head? ≠ some '@') (before : List Char) (lines : List (List Char)) :
    pathsFrom before 0 0 (line :: lines) = pathsFrom line 0 0 lines := by
  rw [pathsFrom, if_pos ⟨rfl, rfl⟩, headerPath?_eq_none hplus, readHead?_eq_none hat]

theorem pathsFrom_eq_nil {lines : List (List Char)}
    (h : ∀ line ∈ lines, line.head? ≠ some '+' ∧ line.head? ≠ some '@') (before : List Char) :
    pathsFrom before 0 0 lines = [] := by
  induction lines generalizing before with
  | nil => rfl
  | cons line lines ih =>
      obtain ⟨⟨hplus, hat⟩, hlines⟩ := List.forall_mem_cons.mp h
      rw [pathsFrom_cons hplus hat, ih hlines]

/-- A printed line that can be told to stand for a line of a hunk. -/
def Signed (line : HunkLine) (text : List Char) : Prop :=
  text.head? = some line.action.sign ∨ line.action = .keep ∧ text.head? = some '\n'

/-- The lines of a hunk are passed over by their number. -/
theorem pathsFrom_signed {lines : List HunkLine} {texts rest : List (List Char)}
    (h : List.Forall₂ Signed lines texts) (hrest : Fresh rest) (before : List Char) :
    pathsFrom before (lines.countP (·.action != .insert)) (lines.countP (·.action != .delete))
      (texts ++ rest) = pathsFrom [] 0 0 rest := by
  induction h generalizing before with
  | nil => exact pathsFrom_of_fresh hrest before
  | @cons line text lines texts hsigned hlines ih =>
      rw [List.cons_append, pathsFrom, List.countP_cons, List.countP_cons]
      obtain ⟨action, shown⟩ := line
      cases action with
      | keep =>
          rcases hsigned with hhead | ⟨-, hhead⟩
          · simpa [hhead, Action.sign] using ih text
          · simpa [hhead] using ih text
      | delete =>
          rcases hsigned with hhead | ⟨hkeep, -⟩
          · simpa [hhead, Action.sign] using ih text
          · cases hkeep
      | insert =>
          rcases hsigned with hhead | ⟨hkeep, -⟩
          · simpa [hhead, Action.sign] using ih text
          · cases hkeep

end Diff

/-! ### Printed plans -/

namespace CommandLine

open Diff

theorem paintDiffLine_cases (palette : Palette) (line : String) :
    paintDiffLine palette line = line ∨
      ∃ styles, paintDiffLine palette line = palette.paint styles line := by
  unfold paintDiffLine
  split
  · exact .inr ⟨_, rfl⟩
  · exact .inr ⟨_, rfl⟩
  · exact .inr ⟨_, rfl⟩
  · exact .inr ⟨_, rfl⟩
  · exact .inr ⟨_, rfl⟩
  · exact .inl rfl

def printedLine (palette : Palette) (line : List Char) : List Char :=
  (paintDiffLine palette (String.ofList (bareLine line))).toList ++ ['\n']

section PrintedLine

variable (palette : Palette) {line : List Char}

theorem terminated_printedLine {cs : List Char} (h : line ∈ rawLines cs) :
    Terminated (printedLine palette line) := by
  have hfeed : '\n' ∉ (String.ofList (bareLine line)).toList := by
    rw [String.toList_ofList]
    exact lineFeed_notMem_bareLine h
  refine ⟨_, ?_, rfl⟩
  rcases paintDiffLine_cases palette (String.ofList (bareLine line)) with hpaint | ⟨styles, hpaint⟩
  · rwa [hpaint]
  · rw [hpaint]
    exact lineFeed_notMem_paint palette styles hfeed

/-- A line with neither styles nor a carriage return of its own is printed as it is. -/
theorem unstyled_printedLine {start : List Char} (hstyle : '\x1b' ∉ start)
    (hreturn : '\r' ∉ start) :
    unstyled (printedLine palette (start ++ ['\n'])) = start ++ ['\n'] := by
  have hbare : bareLine (start ++ ['\n']) = start :=
    @LineEnding.bareLine_append .lineFeed start fun _ hlast => hreturn (List.mem_of_getLast? hlast)
  have hstyle' : '\x1b' ∉ (String.ofList start).toList := by rwa [String.toList_ofList]
  have hfeed : '\x1b' ∉ ['\n'] := by decide
  rw [printedLine, hbare]
  rcases paintDiffLine_cases palette (String.ofList start) with hpaint | ⟨styles, hpaint⟩
  · rw [hpaint, String.toList_ofList, unstyled_append hstyle]
    rfl
  · rw [hpaint, unstyled_paint palette styles hstyle' hfeed, String.toList_ofList]

theorem head?_unstyled_printedLine {c : Char} {cs : List Char} (hbare : bareLine line = c :: cs)
    (hc : c ≠ '\x1b') : (unstyled (printedLine palette line)).head? = some c := by
  have hlist : (String.ofList (bareLine line)).toList = c :: cs := by
    rw [String.toList_ofList, hbare]
  rw [printedLine]
  rcases paintDiffLine_cases palette (String.ofList (bareLine line)) with hpaint | ⟨styles, hpaint⟩
  · rw [hpaint, hlist]
    exact head?_unstyled_cons hc _
  · rw [hpaint]
    exact head?_unstyled_paint palette styles hlist hc _

/-- Without its line end, a line begins as it did. -/
theorem exists_bareLine_eq {c : Char} (hfeed : c ≠ '\n') (hreturn : c ≠ '\r') (cs : List Char) :
    ∃ rest, bareLine (c :: cs) = c :: rest := by
  have hne : bareLine (c :: cs) ≠ [] := by
    intro hnil
    have hline := eq_bareLine_append (c :: cs)
    simp [hnil, hfeed, hreturn] at hline
  obtain ⟨first, rest, hbare⟩ := List.exists_cons_of_ne_nil hne
  refine ⟨rest, ?_⟩
  rcases eq_bareLine_append (c :: cs) with ⟨hline, -⟩ | hline | hline
  all_goals
    rw [hbare] at hline ⊢
    rw [(List.cons.inj hline).1]

end PrintedLine

theorem signed_printedLine (palette : Palette) (line : HunkLine) :
    Signed line (unstyled (printedLine palette line.render)) := by
  have hfeed : line.action.sign ≠ '\n' := by cases line.action <;> decide
  have hreturn : line.action.sign ≠ '\r' := by cases line.action <;> decide
  have hstyle : line.action.sign ≠ '\x1b' := by cases line.action <;> decide
  rw [HunkLine.render]
  split
  · rename_i hempty
    exact .inr ⟨hempty.1, rfl⟩
  · obtain ⟨rest, hbare⟩ := exists_bareLine_eq hfeed hreturn line.text
    exact .inl (head?_unstyled_printedLine palette hbare hstyle)

def printedHunks (palette : Palette) (hunks : List Hunk) : List (List Char) :=
  (hunks.flatMap Hunk.renderLines).map fun line => unstyled (printedLine palette line)

theorem unstyled_printed_head (palette : Palette) (hunk : Hunk) :
    unstyled (printedLine palette hunk.head) = hunk.head := by
  obtain ⟨start, hhead, hchars⟩ := hunk.exists_head_eq
  rw [hhead]
  exact unstyled_printedLine palette (fun hstyle => absurd (hchars _ hstyle) (by decide))
    fun hreturn => absurd (hchars _ hreturn) (by decide)

theorem printedHunks_cons (palette : Palette) (hunk : Hunk) (hunks : List Hunk) :
    printedHunks palette (hunk :: hunks) =
      hunk.head :: ((hunk.lines.map fun line => unstyled (printedLine palette line.render)) ++
        printedHunks palette hunks) := by
  rw [printedHunks, List.flatMap_cons, List.map_append, Hunk.renderLines, List.map_cons,
    List.map_map, unstyled_printed_head]
  rfl

theorem fresh_printedHunks (palette : Palette) (hunks : List Hunk) {rest : List (List Char)}
    (hrest : Fresh rest) : Fresh (printedHunks palette hunks ++ rest) := by
  cases hunks with
  | nil => exact hrest
  | cons hunk hunks =>
      rw [printedHunks_cons]
      intro line hline
      obtain rfl : hunk.head = line := Option.some.inj hline
      have hat : hunk.head.head? = some '@' := rfl
      rw [hat]
      decide

/-- Hunks are passed over. -/
theorem pathsFrom_printedHunks (palette : Palette) (hunks : List Hunk) {rest : List (List Char)}
    (hrest : Fresh rest) (before : List Char) :
    pathsFrom before 0 0 (printedHunks palette hunks ++ rest) = pathsFrom [] 0 0 rest := by
  induction hunks generalizing before with
  | nil => exact pathsFrom_of_fresh hrest before
  | cons hunk hunks ih =>
      have hnone : headerPath? before hunk.head = none :=
        headerPath?_eq_none (by rw [show hunk.head.head? = some '@' from rfl]; decide)
      have hsigned : List.Forall₂ Signed hunk.lines
          (hunk.lines.map fun line => unstyled (printedLine palette line.render)) :=
        List.forall₂_map_right_iff.mpr
          (List.forall₂_same.mpr fun line _ => signed_printedLine palette line)
      rw [printedHunks_cons, List.cons_append, List.append_assoc, pathsFrom, if_pos ⟨rfl, rfl⟩,
        hnone, hunk.readHead?_head]
      exact (pathsFrom_signed hsigned (fresh_printedHunks palette hunks hrest) _).trans (ih [])

/-- A path that can be printed and read again: it has neither line ends nor styles in it. -/
def IsPlain (path : Path) : Prop :=
  '\n' ∉ path.toList ∧ '\r' ∉ path.toList ∧ '\x1b' ∉ path.toList

instance : DecidablePred IsPlain := fun _ => inferInstanceAs (Decidable (_ ∧ _ ∧ _))

def planLines (palette : Palette) (plan : Plan) : List (List Char) :=
  (rawLines plan.renderDiff.toList).map (printedLine palette) ++ [['\n']]

theorem toList_renderPlan (palette : Palette) (plan : Plan) :
    (renderPlan palette plan).toList = (planLines palette plan).flatten := by
  have htext (lines : List String) :
      (textOf lines).toList = (lines.map fun line => line.toList ++ ['\n']).flatten := by
    simp [textOf, String.toList_join, List.flatMap_def, Function.comp_def]
  rw [renderPlan, String.toList_append, htext, planLines, List.flatten_append, textLines, bareLines,
    List.map_map, List.map_map, List.map_map]
  rfl

theorem unstyled_printed_header {front path : String} (hfront : IsPlain front)
    (hpath : IsPlain path) (palette : Palette) :
    unstyled (printedLine palette (front ++ path ++ "\n").toList) =
      (front ++ path ++ "\n").toList := by
  have hlist : (front ++ path ++ "\n").toList = front.toList ++ path.toList ++ ['\n'] := by simp
  rw [hlist]
  apply unstyled_printedLine
  · exact List.not_mem_append hfront.2.2 hpath.2.2
  · exact List.not_mem_append hfront.2.1 hpath.2.1

/-- A reader sees the header lines as they are. -/
theorem map_unstyled_planLines (palette : Palette) {plan : Plan} (hpath : IsPlain plan.path) :
    (planLines palette plan).map unstyled =
      ("--- a/" ++ plan.path ++ "\n").toList :: ("+++ b/" ++ plan.path ++ "\n").toList ::
        (printedHunks palette plan.hunks ++ [['\n']]) := by
  rw [planLines, plan.rawLines_renderDiff hpath.1, List.map_append, List.map_map, List.map_cons,
    List.map_cons, Function.comp_apply, Function.comp_apply,
    unstyled_printed_header (by decide) hpath, unstyled_printed_header (by decide) hpath]
  rfl

theorem head?_header (path : Path) : ("--- a/" ++ path ++ "\n").toList.head? = some '-' := by
  simp

/-- A printed plan gives its path. -/
theorem pathsFrom_planLines (palette : Palette) {plan : Plan} (hpath : IsPlain plan.path)
    {rest : List (List Char)} (hrest : Fresh rest) (before : List Char) :
    pathsFrom before 0 0 ((planLines palette plan).map unstyled ++ rest) =
      plan.path :: pathsFrom [] 0 0 rest := by
  have hblank : Fresh (['\n'] :: rest) := by
    intro line hline
    obtain rfl : ['\n'] = line := Option.some.inj hline
    decide
  rw [map_unstyled_planLines palette hpath, List.cons_append, List.cons_append, List.append_assoc,
    pathsFrom_cons (by rw [head?_header]; decide) (by rw [head?_header]; decide), pathsFrom,
    if_pos ⟨rfl, rfl⟩, headerPath?_header]
  refine congrArg (plan.path :: ·) ?_
  rw [List.singleton_append, pathsFrom_printedHunks palette plan.hunks hblank,
    pathsFrom_cons (by decide) (by decide), pathsFrom_of_fresh hrest]

theorem fresh_planLines (palette : Palette) {plans : List Plan}
    (hpaths : ∀ plan ∈ plans, IsPlain plan.path) {rest : List (List Char)} (hrest : Fresh rest) :
    Fresh ((plans.flatMap (planLines palette)).map unstyled ++ rest) := by
  cases plans with
  | nil => exact hrest
  | cons plan plans =>
      rw [List.flatMap_cons, List.map_append,
        map_unstyled_planLines palette (hpaths plan List.mem_cons_self)]
      intro line hline
      obtain rfl := Option.some.inj hline
      rw [head?_header]
      decide

theorem pathsFrom_flatMap_planLines (palette : Palette) {plans : List Plan}
    (hpaths : ∀ plan ∈ plans, IsPlain plan.path) {rest : List (List Char)} (hrest : Fresh rest)
    (before : List Char) :
    pathsFrom before 0 0 ((plans.flatMap (planLines palette)).map unstyled ++ rest) =
      plans.map (·.path) ++ pathsFrom [] 0 0 rest := by
  induction plans generalizing before with
  | nil => exact pathsFrom_of_fresh hrest before
  | cons plan plans ih =>
      obtain ⟨hpath, hpaths⟩ := List.forall_mem_cons.mp hpaths
      rw [List.flatMap_cons, List.map_append, List.append_assoc,
        pathsFrom_planLines palette hpath (fresh_planLines palette hpaths hrest), ih hpaths]
      rfl

/-! ### What is printed besides -/

/-- Lines that neither end a header nor begin a hunk. -/
def Remarks (text : String) : Prop :=
  ∃ lines : List (List Char), text.toList = lines.flatten ∧ ∀ line ∈ lines, Terminated line ∧
    (unstyled line).head? ≠ some '+' ∧ (unstyled line).head? ≠ some '@'

theorem remarks_empty : Remarks "" := ⟨[], rfl, fun _ h => absurd h List.not_mem_nil⟩

theorem Remarks.append {text other : String} (h : Remarks text) (h' : Remarks other) :
    Remarks (text ++ other) := by
  obtain ⟨lines, htext, hlines⟩ := h
  obtain ⟨lines', hother, hlines'⟩ := h'
  refine ⟨lines ++ lines', ?_, List.forall_mem_append.mpr ⟨hlines, hlines'⟩⟩
  rw [String.toList_append, htext, hother, List.flatten_append]

/-- A line that begins with a painted text. -/
theorem remarks_paint (palette : Palette) (styles : List Style) {mark rest : String} {c : Char}
    {cs : List Char} (hmark : mark.toList = c :: cs) (hc : c ∉ ['\x1b', '+', '@'])
    (hfeed : '\n' ∉ mark.toList) (hrest : '\n' ∉ rest.toList) :
    Remarks (palette.paint styles mark ++ rest ++ "\n") := by
  have hhead := head?_unstyled_paint palette styles hmark (by rintro rfl; simp at hc)
    (rest.toList ++ ['\n'])
  rw [← List.append_assoc, ← String.toList_append] at hhead
  refine ⟨[(palette.paint styles mark ++ rest).toList ++ ['\n']], by simp, ?_⟩
  intro line hline
  obtain rfl := List.mem_singleton.mp hline
  refine ⟨⟨_, ?_, rfl⟩, ?_, ?_⟩
  · rw [String.toList_append]
    exact List.not_mem_append (lineFeed_notMem_paint palette styles hfeed) hrest
  · rintro heq
    obtain rfl := Option.some.inj (hhead.symm.trans heq)
    simp at hc
  · rintro heq
    obtain rfl := Option.some.inj (hhead.symm.trans heq)
    simp at hc

theorem remarks_line {mark rest : String} {c : Char} {cs : List Char}
    (hmark : mark.toList = c :: cs) (hc : c ∉ ['\x1b', '+', '@']) (hfeed : '\n' ∉ mark.toList)
    (hrest : '\n' ∉ rest.toList) : Remarks (mark ++ rest ++ "\n") :=
  remarks_paint ⟨false⟩ [] hmark hc hfeed hrest

theorem lineFeed_notMem_digits (n : Nat) : '\n' ∉ Nat.toDigits 10 n :=
  fun hfeed => absurd (isDigit_of_mem_toDigits hfeed) (by decide)

theorem remarks_skippedLine (skipped : Nat) : Remarks (skippedLine skipped) := by
  rw [skippedLine]
  split
  · have hrest : '\n' ∉ (toString skipped ++
        " issue(s) without a resolvable type declaration").toList := by
      simp [lineFeed_notMem_digits]
    have hline := @remarks_line "  - skipped: " _ ' ' _ rfl (by decide) (by decide) hrest
    simpa [String.append_assoc] using hline
  · exact remarks_empty

theorem remarks_nothingToFix (palette : Palette) (issueCount : Nat) :
    Remarks (nothingToFix palette issueCount) := by
  have hrest : '\n' ∉ (" " ++ toString issueCount ++
      " issue(s) found, but no companion resource file needs changes.").toList := by
    simp [lineFeed_notMem_digits]
  have hline := @remarks_paint palette [.red] failureMark _ '✘' _ rfl (by decide) (by decide) hrest
  simpa [nothingToFix, String.append_assoc] using hline

theorem remarks_wouldRestore (palette : Palette) (fileCount : Nat) :
    Remarks (palette.paint [.bold, .yellow] "Would restore" ++ " the default language in " ++
      toString fileCount ++ " resource file(s).\n" ++ "Run with " ++
      palette.paint [.cyan] "--apply" ++ " to rewrite these files.\n") := by
  have hcount : '\n' ∉ (" the default language in " ++ toString fileCount ++
      " resource file(s).").toList := by
    simp [lineFeed_notMem_digits]
  have hflag : '\n' ∉ (palette.paint [.cyan] "--apply" ++ " to rewrite these files.").toList := by
    rw [String.toList_append]
    exact List.not_mem_append (lineFeed_notMem_paint palette [.cyan] (by decide)) (by decide)
  have hfirst := @remarks_paint palette [.bold, .yellow] "Would restore" _ 'W' _ rfl (by decide)
    (by decide) hcount
  have hsecond := @remarks_line "Run with " _ 'R' _ rfl (by decide) (by decide) hflag
  refine (congrArg Remarks (String.toList_inj.mp ?_)).mp (hfirst.append hsecond)
  simp

theorem remarks_success (palette : Palette) (sourceFiles resourceFiles : Nat) :
    Remarks (Report.success palette sourceFiles resourceFiles) := by
  have hplural (count : Nat) : '\n' ∉ (plural count "file").toList := by
    rw [plural]
    split <;> decide
  have hmessage : '\n' ∉ ("Checked " ++ toString sourceFiles ++ " source " ++
      plural sourceFiles "file" ++ ", " ++ toString resourceFiles ++ " resource " ++
      plural resourceFiles "file" ++ " - no issues found").toList := by
    simp [lineFeed_notMem_digits, hplural]
  have hrest : '\n' ∉ (" " ++ palette.paint [.green] ("Checked " ++ toString sourceFiles ++
      " source " ++ plural sourceFiles "file" ++ ", " ++ toString resourceFiles ++ " resource " ++
      plural resourceFiles "file" ++ " - no issues found")).toList := by
    rw [String.toList_append]
    exact List.not_mem_append (by decide) (lineFeed_notMem_paint palette [.green] hmessage)
  have hline :=
    @remarks_paint palette [.green] successMark _ '✓' _ rfl (by decide) (by decide) hrest
  rwa [← String.append_assoc] at hline

theorem terminated_of_mem_planLines (palette : Palette) {plan : Plan} {line : List Char}
    (h : line ∈ planLines palette plan) : Terminated line := by
  rcases List.mem_append.mp h with h | h
  · obtain ⟨raw, hraw, rfl⟩ := List.mem_map.mp h
    exact terminated_printedLine palette hraw
  · rw [List.mem_singleton.mp h]
    exact ⟨[], List.not_mem_nil, rfl⟩

/-- A reader of printed plans, with remarks behind them, finds the paths of the plans. -/
theorem pathsIn_plans (palette : Palette) {plans : List Plan}
    (hpaths : ∀ plan ∈ plans, IsPlain plan.path) {text : String} (htext : Remarks text) :
    pathsIn (String.join (plans.map (renderPlan palette)) ++ text) = plans.map (·.path) := by
  obtain ⟨lines, hlines, hremarks⟩ := htext
  have hall : (String.join (plans.map (renderPlan palette)) ++ text).toList =
      (plans.flatMap (planLines palette) ++ lines).flatten := by
    rw [String.toList_append, hlines, List.flatten_append, String.toList_join]
    simp [List.flatMap_def, Function.comp_def, toList_renderPlan, List.flatten_flatten]
  have hterminated : ∀ line ∈ plans.flatMap (planLines palette) ++ lines, Terminated line := by
    refine List.forall_mem_append.mpr ⟨fun line hline => ?_, fun line hline =>
      (hremarks line hline).1⟩
    obtain ⟨plan, -, hline⟩ := List.mem_flatMap.mp hline
    exact terminated_of_mem_planLines palette hline
  have hrest : pathsFrom [] 0 0 (lines.map unstyled) = [] :=
    pathsFrom_eq_nil (List.forall_mem_map.mpr fun line hline => (hremarks line hline).2) []
  have hfresh : Fresh (lines.map unstyled) := by
    cases lines with
    | nil => exact fun line hline => absurd hline (by simp)
    | cons line lines =>
        intro shown hshown
        obtain rfl : unstyled line = shown := Option.some.inj hshown
        exact (hremarks line List.mem_cons_self).2.1
  rw [pathsIn, hall, (areLines_of_terminated hterminated).rawLines_flatten, List.map_append,
    pathsFrom_flatMap_planLines palette hpaths hfresh, hrest, List.append_nil]

/-- A reader of the report on a preview finds the paths of its plans. -/
theorem pathsIn_previewReport (palette : Palette) (issueCount : Nat) {preview : Batch.Preview}
    (hpaths : ∀ plan ∈ preview.plans, IsPlain plan.path) :
    pathsIn (previewReport palette issueCount preview) = preview.plans.map (·.path) := by
  rw [previewReport, String.append_assoc]
  refine pathsIn_plans palette hpaths (.append ?_ (remarks_skippedLine _))
  split
  · exact remarks_nothingToFix palette issueCount
  · exact remarks_wouldRestore palette preview.plans.length

theorem pathsIn_success (palette : Palette) (sourceFiles resourceFiles : Nat) :
    pathsIn (Report.success palette sourceFiles resourceFiles) = [] := by
  have hremarks := remarks_success palette sourceFiles resourceFiles
  have hpaths := @pathsIn_plans palette [] (by simp) _ hremarks
  rwa [List.map_nil, String.join_nil, String.empty_append] at hpaths

end CommandLine

end ResourceLanguage
