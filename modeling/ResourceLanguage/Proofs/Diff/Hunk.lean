import ResourceLanguage.Diff.Hunk
import ResourceLanguage.Proofs.Diff.Compact

/-!
How the hunks of a script lie over the two texts. Between two hunks both texts have the same lines,
and each hunk begins where its numbers say. Around its changes it shows three kept lines on either
side, or fewer where the text begins or ends.
-/

namespace ResourceLanguage.Diff

/-! ### Segments -/

def Segment.old : Segment → List (List Char)
  | .keep lines => lines
  | .change c => c.deleted

def Segment.new : Segment → List (List Char)
  | .keep lines => lines
  | .change c => c.inserted

theorem old_segments (script : List (Edit (List Char))) :
    (segments script).flatMap Segment.old = Edit.oldOf script := by
  fun_induction segments script <;> simp_all [Segment.old, Edit.old]

theorem new_segments (script : List (Edit (List Char))) :
    (segments script).flatMap Segment.new = Edit.newOf script := by
  fun_induction segments script <;> simp_all [Segment.new, Edit.new]

theorem Change.lines_ne_nil_iff (change : Change) :
    change.lines ≠ [] ↔ change.deleted ≠ [] ∨ change.inserted ≠ [] := by
  rw [← Classical.not_and_iff_not_or_not]
  simp [Change.lines]

/-- What follows a change: nothing, or kept lines with nothing or a further change behind them. No
change is empty. -/
inductive AfterChange : List Segment → Prop where
  | done : AfterChange []
  | kept (lines : List (List Char)) : AfterChange [.keep lines]
  | again (lines : List (List Char)) {change : Change} {rest : List Segment}
      (hchange : change.lines ≠ []) (hrest : AfterChange rest) :
      AfterChange (.keep lines :: .change change :: rest)

/-- The segments of a text begin with a change, or as if there had been one before. -/
inductive WellCut : List Segment → Prop where
  | kept {segments : List Segment} (h : AfterChange segments) : WellCut segments
  | changed {change : Change} {rest : List Segment} (hchange : change.lines ≠ [])
      (hrest : AfterChange rest) : WellCut (.change change :: rest)

theorem WellCut.cons_change {segments : List Segment} (h : WellCut segments) {change : Change}
    (hchange : change.lines ≠ [])
    (hnext : ∀ c rest, segments = .change c :: rest → False) :
    WellCut (.change change :: segments) := by
  cases h with
  | kept h => exact .changed hchange h
  | changed => exact (hnext _ _ rfl).elim

theorem wellCut_segments {script : List (Edit (List Char))} (h : Edit.Proper script) :
    WellCut (segments script) := by
  have hlines := Change.lines_ne_nil_iff
  fun_induction segments script with
  | case1 => exact .kept .done
  | case2 edit script lines rest hrest haction ih =>
      have ih := hrest ▸ ih (List.forall_mem_cons.mp h).2
      cases ih with
      | kept ih =>
          cases ih with
          | kept => exact .kept (.kept _)
          | again _ hchange hafter => exact .kept (.again _ hchange hafter)
  | case3 edit script haction hother ih =>
      have ih := ih (List.forall_mem_cons.mp h).2
      generalize segments script = rest at ih hother
      cases ih with
      | kept ih =>
          cases ih with
          | done => exact .kept (.kept _)
          | kept => exact (hother _ _ rfl).elim
          | again => exact (hother _ _ rfl).elim
      | changed hchange hrest => exact .kept (.again _ hchange hrest)
  | case4 edit script c rest hrest haction ih =>
      obtain ⟨hedit, hscript⟩ := List.forall_mem_cons.mp h
      have ih := hrest ▸ ih hscript
      cases ih with
      | kept ih => cases ih
      | changed _ hrest => exact .changed ((hlines _).mpr (.inl (by simp_all))) hrest
  | case5 edit script haction hother ih =>
      obtain ⟨hedit, hscript⟩ := List.forall_mem_cons.mp h
      exact (ih hscript).cons_change ((hlines _).mpr (.inl (by simp_all))) hother
  | case6 edit script c rest hrest haction ih =>
      obtain ⟨hedit, hscript⟩ := List.forall_mem_cons.mp h
      have ih := hrest ▸ ih hscript
      cases ih with
      | kept ih => cases ih
      | changed _ hrest => exact .changed ((hlines _).mpr (.inr (by simp_all))) hrest
  | case7 edit script haction hother ih =>
      obtain ⟨hedit, hscript⟩ := List.forall_mem_cons.mp h
      exact (ih hscript).cons_change ((hlines _).mpr (.inr (by simp_all))) hother

/-! ### Lines of hunks -/

def oldTexts (lines : List HunkLine) : List (List Char) :=
  (lines.filter (·.action != .insert)).map (·.text)

def newTexts (lines : List HunkLine) : List (List Char) :=
  (lines.filter (·.action != .delete)).map (·.text)

@[simp] theorem oldTexts_append (lines lines' : List HunkLine) :
    oldTexts (lines ++ lines') = oldTexts lines ++ oldTexts lines' := by
  simp [oldTexts]

@[simp] theorem newTexts_append (lines lines' : List HunkLine) :
    newTexts (lines ++ lines') = newTexts lines ++ newTexts lines' := by
  simp [newTexts]

/-- Lines of one sort are all taken, or all left out. -/
theorem texts_map (action other : Action) (lines : List (List Char)) :
    ((lines.map (HunkLine.mk action)).filter (·.action != other)).map (·.text) =
      if action = other then [] else lines := by
  induction lines with
  | nil => simp
  | cons line lines ih =>
      rw [List.map_cons, List.filter_cons]
      by_cases h : action = other <;> simp_all

@[simp] theorem contextLines_nil : contextLines [] = [] := rfl

@[simp] theorem oldTexts_contextLines (lines : List (List Char)) :
    oldTexts (contextLines lines) = lines :=
  texts_map .keep .insert lines

@[simp] theorem newTexts_contextLines (lines : List (List Char)) :
    newTexts (contextLines lines) = lines :=
  texts_map .keep .delete lines

@[simp] theorem oldTexts_change (change : Change) : oldTexts change.lines = change.deleted := by
  rw [Change.lines, oldTexts_append, oldTexts, oldTexts, texts_map, texts_map]
  simp

@[simp] theorem newTexts_change (change : Change) : newTexts change.lines = change.inserted := by
  rw [Change.lines, newTexts_append, newTexts, newTexts, texts_map, texts_map]
  simp

theorem Hunk.oldCount_eq (hunk : Hunk) : hunk.oldCount = (oldTexts hunk.lines).length := by
  rw [Hunk.oldCount, oldTexts, List.length_map, List.countP_eq_length_filter]

theorem Hunk.newCount_eq (hunk : Hunk) : hunk.newCount = (newTexts hunk.lines).length := by
  rw [Hunk.newCount, newTexts, List.length_map, List.countP_eq_length_filter]

/-! ### The frame of a hunk -/

/-- Lines of which the first and the last one are changed. -/
structure EndsChanged (lines : List HunkLine) : Prop where
  first : ∃ line ∈ lines.head?, line.action ≠ .keep
  last : ∃ line ∈ lines.getLast?, line.action ≠ .keep

/-- A hunk to which further changes can be added: kept lines, as many as are shown before a change
or all that the text has, and then lines that begin and end with a change. -/
inductive Opened (start : Nat) : List HunkLine → Prop where
  | mk {before : List (List Char)} {body : List HunkLine} (hbody : EndsChanged body)
      (hbefore : before.length = contextLength ∨ before.length < contextLength ∧ start = 0) :
      Opened start (contextLines before ++ body)

/-- The lines of a hunk with kept lines on both sides, as many as are shown or all that the text
has. `rest` is what follows in the text. -/
inductive Framed (start : Nat) (rest : List (List Char)) : List HunkLine → Prop where
  | mk {before after : List (List Char)} {body : List HunkLine} (hbody : EndsChanged body)
      (hbefore : before.length = contextLength ∨ before.length < contextLength ∧ start = 0)
      (hafter : after.length = contextLength ∨ after.length < contextLength ∧ rest = []) :
      Framed start rest (contextLines before ++ body ++ contextLines after)

theorem endsChanged_change {change : Change} (h : change.lines ≠ []) :
    EndsChanged change.lines := by
  have hall : ∀ line ∈ change.lines, line.action ≠ .keep := by
    simp [Change.lines, or_imp, forall_and]
  refine ⟨⟨change.lines.head h, List.head?_eq_some_head h, hall _ (List.head_mem h)⟩,
    ⟨change.lines.getLast h, List.getLast?_eq_some_getLast h, hall _ (List.getLast_mem h)⟩⟩

theorem EndsChanged.append {lines more : List HunkLine} (h : EndsChanged lines)
    (middle : List HunkLine) (h' : EndsChanged more) : EndsChanged (lines ++ middle ++ more) := by
  obtain ⟨first, hfirst, hchanged⟩ := h.first
  obtain ⟨last, hlast, hchanged'⟩ := h'.last
  refine ⟨⟨first, ?_, hchanged⟩, ⟨last, ?_, hchanged'⟩⟩
  · rw [List.append_assoc, List.head?_append, Option.mem_def.mp hfirst]
    rfl
  · rw [List.getLast?_append, Option.mem_def.mp hlast]
    rfl

theorem Opened.append {start : Nat} {lines : List HunkLine} (h : Opened start lines)
    (kept : List (List Char)) {change : Change} (hchange : change.lines ≠ []) :
    Opened start (lines ++ contextLines kept ++ change.lines) := by
  cases h with
  | mk hbody hbefore =>
      have hmore := hbody.append (contextLines kept) (endsChanged_change hchange)
      simpa using Opened.mk hmore hbefore

theorem Opened.framed {start : Nat} {lines : List HunkLine} (h : Opened start lines)
    {after rest : List (List Char)}
    (hafter : after.length = contextLength ∨ after.length < contextLength ∧ rest = []) :
    Framed start rest (lines ++ contextLines after) := by
  cases h with
  | mk hbody hbefore => exact .mk hbody hbefore hafter

/-! ### Hunks over two texts -/

/-- Hunks that lie over an old and a new text, of which some lines have gone before. Up to the first
hunk the lines are the same; behind it the other hunks follow; what is left is the same again. -/
inductive Laid : (oldLine newLine : Nat) → (old new : List (List Char)) → List Hunk → Prop where
  | nil {oldLine newLine : Nat} (lines : List (List Char)) : Laid oldLine newLine lines lines []
  | cons {oldLine newLine : Nat} {old new : List (List Char)} {hunk : Hunk} {hunks : List Hunk}
      (skipped : List (List Char))
      (hold : hunk.oldStart = oldLine + skipped.length)
      (hnew : hunk.newStart = newLine + skipped.length)
      (hframed : Framed hunk.oldStart old hunk.lines)
      (hrest : Laid (hunk.oldStart + (oldTexts hunk.lines).length)
        (hunk.newStart + (newTexts hunk.lines).length) old new hunks) :
      Laid oldLine newLine (skipped ++ (oldTexts hunk.lines ++ old))
        (skipped ++ (newTexts hunk.lines ++ new)) (hunk :: hunks)

/-- A hunk that ends with a change is closed by kept lines. -/
theorem Laid.closing {hunk : Hunk} {hunks : List Hunk} {oldLine newLine : Nat}
    {skipped after old new : List (List Char)} (hopened : Opened hunk.oldStart hunk.lines)
    (hold : hunk.oldStart = oldLine + skipped.length)
    (hnew : hunk.newStart = newLine + skipped.length)
    (hafter : after.length = contextLength ∨ after.length < contextLength ∧ old = [])
    (hrest : Laid (hunk.oldStart + (oldTexts hunk.lines).length + after.length)
      (hunk.newStart + (newTexts hunk.lines).length + after.length) old new hunks) :
    Laid oldLine newLine (skipped ++ (oldTexts hunk.lines ++ (after ++ old)))
      (skipped ++ (newTexts hunk.lines ++ (after ++ new)))
      ({ hunk with lines := hunk.lines ++ contextLines after } :: hunks) := by
  have hlaid := @Laid.cons oldLine newLine old new
    { hunk with lines := hunk.lines ++ contextLines after } hunks skipped hold hnew
    (hopened.framed hafter) (by simpa [Nat.add_assoc] using hrest)
  simpa using hlaid

/-- A hunk that ends with a change is completed so that it, and the hunks after it, lie over the
texts. -/
def Completes (segments : List Segment) : Prop :=
  ∀ (hunk : Hunk) (oldLine newLine : Nat) (skipped : List (List Char)),
    Opened hunk.oldStart hunk.lines →
    hunk.oldStart = oldLine + skipped.length → hunk.newStart = newLine + skipped.length →
    Laid oldLine newLine
      (skipped ++ (oldTexts hunk.lines ++ segments.flatMap Segment.old))
      (skipped ++ (newTexts hunk.lines ++ segments.flatMap Segment.new))
      (hunksFrom (hunk.oldStart + (oldTexts hunk.lines).length)
        (hunk.newStart + (newTexts hunk.lines).length) [] (some hunk) segments)

/-- A change outside of a hunk opens one. -/
theorem Completes.opening {rest : List Segment} (h : Completes rest) {change : Change}
    (hchange : change.lines ≠ []) (context skipped : List (List Char)) (oldLine newLine : Nat)
    (hcontext : context.length = contextLength ∨
      context.length < contextLength ∧ oldLine + skipped.length = 0) :
    Laid oldLine newLine
      (skipped ++ (context ++ (change.deleted ++ rest.flatMap Segment.old)))
      (skipped ++ (context ++ (change.inserted ++ rest.flatMap Segment.new)))
      (hunksFrom (oldLine + skipped.length + context.length)
        (newLine + skipped.length + context.length) context none (.change change :: rest)) := by
  have hopened : Opened (oldLine + skipped.length) (contextLines context ++ change.lines) :=
    .mk (endsChanged_change hchange) hcontext
  have hlaid := h ⟨oldLine + skipped.length, newLine + skipped.length, _⟩ oldLine newLine skipped
    hopened rfl rfl
  simp only [hunksFrom, Option.getD_none, Nat.add_sub_cancel]
  simpa [Nat.add_assoc] using hlaid

/-- Between changes that do not share a hunk there is room for the lines that both show. -/
theorem exists_between {lines : List (List Char)} (h : 2 * contextLength ≤ lines.length) :
    ∃ between, ∀ more, lines ++ more =
      lines.take contextLength ++ (between ++ (lastContext lines ++ more)) := by
  refine ⟨(lines.drop contextLength).take (lines.length - 2 * contextLength), fun more => ?_⟩
  have hlast : lastContext lines =
      (lines.drop contextLength).drop (lines.length - 2 * contextLength) := by
    rw [lastContext, List.drop_drop]
    congr 1
    omega
  rw [hlast, ← List.append_assoc (List.take _ _) (List.drop _ _), List.take_append_drop,
    ← List.append_assoc, List.take_append_drop]

theorem completes_of_afterChange {segments : List Segment} (h : AfterChange segments) :
    Completes segments := by
  induction h with
  | done =>
      intro hunk oldLine newLine skipped hopened hold hnew
      have hafter : ([] : List (List Char)).length < contextLength := by decide
      have hlaid := Laid.closing hopened hold hnew (.inr ⟨hafter, rfl⟩) (.nil [])
      simpa [hunksFrom] using hlaid
  | kept lines =>
      intro hunk oldLine newLine skipped hopened hold hnew
      have hafter : (lines.take contextLength).length = contextLength ∨
          (lines.take contextLength).length < contextLength ∧ lines.drop contextLength = [] := by
        rw [List.length_take, List.drop_eq_nil_iff]
        omega
      have hlaid := Laid.closing hopened hold hnew hafter (.nil _)
      simpa [hunksFrom, Segment.old, Segment.new] using hlaid
  | @again lines change rest hchange hrest ih =>
      intro hunk oldLine newLine skipped hopened hold hnew
      rw [hunksFrom]
      split
      · -- The kept lines and the next change are added to the hunk.
        have hlaid := ih { hunk with lines := hunk.lines ++ contextLines lines ++ change.lines }
          oldLine newLine skipped (hopened.append lines hchange) hold hnew
        simpa [hunksFrom, Segment.old, Segment.new, Nat.add_assoc] using hlaid
      · -- The hunk is closed by the first of the kept lines, and the next change opens another one.
        rename_i hjoins
        have hgap : 2 * contextLength ≤ lines.length := by
          simp only [joins, Bool.or_eq_true, decide_eq_true_eq, not_or] at hjoins
          omega
        have htake : (lines.take contextLength).length = contextLength := by
          rw [List.length_take]
          omega
        have hlast : (lastContext lines).length = contextLength := by
          rw [lastContext, List.length_drop]
          omega
        obtain ⟨between, hlines⟩ := exists_between hgap
        have hlength : ∀ n, n + (lines.take contextLength).length + between.length +
            (lastContext lines).length = n + lines.length := by
          intro n
          have := congrArg List.length (hlines [])
          simp only [List.append_nil, List.length_append] at this
          omega
        have hopening := ih.opening hchange (lastContext lines) between
          (hunk.oldStart + (oldTexts hunk.lines).length + (lines.take contextLength).length)
          (hunk.newStart + (newTexts hunk.lines).length + (lines.take contextLength).length)
          (.inl hlast)
        rw [hlength, hlength] at hopening
        have hlaid := Laid.closing hopened hold hnew (.inl htake) hopening
        rw [← hlines, ← hlines] at hlaid
        exact hlaid

theorem laid_hunksFrom {segments : List Segment} (h : WellCut segments) :
    Laid 0 0 (segments.flatMap Segment.old) (segments.flatMap Segment.new)
      (hunksFrom 0 0 [] none segments) := by
  cases h with
  | kept h =>
      cases h with
      | done => exact .nil []
      | kept lines => simpa [hunksFrom, Segment.old, Segment.new] using Laid.nil lines
      | @again lines change rest hchange hrest =>
          have hcontext : (lastContext lines).length = contextLength ∨
              (lastContext lines).length < contextLength ∧
                0 + (lines.take (lines.length - contextLength)).length = 0 := by
            rw [lastContext, List.length_drop, List.length_take]
            omega
          have hlines : ∀ more, lines.take (lines.length - contextLength) ++
              (lastContext lines ++ more) = lines ++ more := by
            intro more
            rw [← List.append_assoc, lastContext, List.take_append_drop]
          have hlength := congrArg List.length (hlines [])
          rw [List.append_nil, List.append_nil, List.length_append] at hlength
          have hlaid := (completes_of_afterChange hrest).opening hchange (lastContext lines)
            (lines.take (lines.length - contextLength)) 0 0 hcontext
          rw [hlines, hlines, Nat.zero_add, hlength] at hlaid
          simpa [hunksFrom, Segment.old, Segment.new] using hlaid
  | changed hchange hrest =>
      exact (completes_of_afterChange hrest).opening hchange [] [] 0 0 (.inr ⟨by decide, rfl⟩)

/-- The hunks between two texts lie over them. -/
theorem laid_hunks (old new : List (List Char)) : Laid 0 0 old new (hunks old new) := by
  have hturns : Turns old new (compact (script old new)) :=
    (same_compact (script old new)).turns (turns_script old new)
  have hlaid := laid_hunksFrom (wellCut_segments hturns.proper)
  rwa [old_segments, new_segments, hturns.old, hturns.new] at hlaid

/-! ### Equal texts -/

theorem compactWith_of_absent {α : Type} [DecidableEq α] {action : Action} (visits : Nat)
    (before : List (Edit α)) {after : List (Edit α)} (h : ∀ edit ∈ after, edit.action ≠ action) :
    compactWith action visits before after = before.reverse ++ after := by
  fun_induction compactWith action visits before after with
  | case1 => rfl
  | case2 => simp
  | case3 visits before edit after haction => exact absurd haction (h edit List.mem_cons_self)
  | case4 visits before edit after haction ih =>
      rw [ih (List.forall_mem_cons.mp h).2]
      simp

theorem script_self (lines : List (List Char)) : script lines lines = kept lines := by
  have hlength : commonPrefixLength lines lines = lines.length := by
    induction lines with
    | nil => rfl
    | cons line lines ih => simp [commonPrefixLength, ih]
  rw [script]
  simp [hlength, replacement, kept]

/-- Between equal texts there are no hunks. -/
theorem hunks_self (lines : List (List Char)) : hunks lines lines = [] := by
  have hkept : ∀ action, action ≠ .keep → compactAction action (kept lines) = kept lines := by
    intro action haction
    refine compactWith_of_absent _ [] fun edit hedit => ?_
    obtain ⟨_, rfl⟩ : ¬lines.isEmpty ∧ edit = .keep lines := by simpa [kept] using hedit
    exact haction.symm
  rw [hunks, script_self, compact, hkept .delete (by decide), hkept .insert (by decide)]
  cases lines with
  | nil => rfl
  | cons line lines => rfl

end ResourceLanguage.Diff
