import ResourceLanguage.Proofs.ActiveCode.Nesting

/-!
The pass over the lines of a file computes the meaning of its nested groups. One step of the pass
is described for each sort of line; the statements about blocks and branches then follow the
structure of the tree, with the state of the pass left general.
-/

namespace ResourceLanguage

open ResourceLanguage.Text

namespace PassState

theorem emitAll_append (state : PassState) (first second : List (List Char)) :
    state.emitAll (first ++ second) =
      state.emitAll first ++ (state.afterLines first).emitAll second := by
  induction first generalizing state with
  | nil => rfl
  | cons line lines ih =>
      simp only [List.cons_append, emitAll, ih]
      rfl

theorem afterLines_append (state : PassState) (first second : List (List Char)) :
    state.afterLines (first ++ second) = (state.afterLines first).afterLines second :=
  List.foldl_append

@[simp] theorem afterLines_nil (state : PassState) : state.afterLines [] = state := rfl

@[simp] theorem afterLines_cons (state : PassState) (line : List Char)
    (lines : List (List Char)) :
    state.afterLines (line :: lines) = (state.afterLine line).afterLines lines := rfl

@[simp] theorem active_cons (symbols : Symbols) (innermost : Section) (outer : List Section) :
    active ⟨symbols, innermost :: outer⟩ = innermost.active := rfl

/-- Inactive code becomes blank. -/
theorem emit_of_inactive {state : PassState} (h : state.active = false) (line : List Char) :
    state.emit line = blankLine line := by
  simp [emit, h]

/-- A directive becomes blank. -/
theorem emit_of_directive (state : PassState) {line : List Char} {directive : Directive}
    (h : Directive.ofLine? line = some directive) : state.emit line = blankLine line := by
  simp [emit, h]

theorem afterLine_of_directive (state : PassState) {line : List Char} {directive : Directive}
    (h : Directive.ofLine? line = some directive) :
    state.afterLine line = state.next directive := by
  simp [afterLine, h]

end PassState

namespace Nesting

open PassState

/-- In active code an inner line changes nothing but the symbols. -/
theorem afterLine_inner_of_active {state : PassState} {line : List Char} (inner : IsInner line)
    (h : state.active = true) :
    state.afterLine line = { state with symbols := symbolsAfter state.symbols line } := by
  unfold PassState.afterLine symbolsAfter
  cases hline : Directive.ofLine? line with
  | none => rfl
  | some directive =>
      have hinner := inner directive hline
      cases directive <;> simp_all [Directive.isConditional, PassState.next]

/-- In inactive code an inner line has no effect. -/
theorem afterLine_inner_of_inactive {state : PassState} {line : List Char}
    (inner : IsInner line) (h : state.active = false) : state.afterLine line = state := by
  unfold PassState.afterLine
  cases hline : Directive.ofLine? line with
  | none => rfl
  | some directive =>
      have hinner := inner directive hline
      cases directive <;> simp_all [Directive.isConditional, PassState.next]

theorem emit_of_active {state : PassState} (h : state.active = true) (line : List Char) :
    state.emit line = activeLine line := by
  simp [PassState.emit, activeLine, h]

def Head.enter (head : Head) (symbols : Symbols) (innermost : Section) : Section :=
  match head with
  | .elif condition => innermost.elif (Condition.holds condition symbols)
  | .otherwise => innermost.otherwise

theorem next_head (symbols : Symbols) (innermost : Section) (outer : List Section)
    (head : Head) :
    PassState.next ⟨symbols, innermost :: outer⟩ head.directive =
      ⟨symbols, head.enter symbols innermost :: outer⟩ := by
  cases head <;> rfl

/-- No later branch of the section can be selected. -/
def Settled (innermost : Section) : Prop :=
  innermost.enclosing = false ∨ innermost.taken = true

theorem active_enter_of_settled {innermost : Section} (h : Settled innermost) (head : Head)
    (symbols : Symbols) : (head.enter symbols innermost).active = false := by
  rcases h with h | h <;> cases head <;>
    simp [Head.enter, Section.elif, Section.otherwise, h]

theorem settled_enter {innermost : Section} (h : Settled innermost) (head : Head)
    (symbols : Symbols) : Settled (head.enter symbols innermost) := by
  rcases h with h | h <;> cases head <;>
    simp [Settled, Head.enter, Section.elif, Section.otherwise, h]

/-- The section of a group in active code whose current branch is the first that was selected, or
has no selected branch before it. -/
def pending (selected : Bool) : Section :=
  { enclosing := true, taken := selected, active := selected }

/-- While no branch is selected, the head of the next one decides. -/
theorem enter_pending (head : Head) (symbols : Symbols) :
    head.enter symbols (pending false) = pending (head.selects symbols) := by
  cases head <;> simp [Head.enter, Head.selects, Section.elif, Section.otherwise, pending]

theorem settled_pending : Settled (pending true) := .inr rfl

theorem opened_true (holds : Bool) : Section.opened true holds = pending holds := by
  simp [Section.opened, pending]

theorem afterLine_opening (state : PassState) {opening condition : List Char}
    (opens : Directive.ofLine? opening = some (.ifCondition condition)) :
    state.afterLine opening =
      ⟨state.symbols,
        .opened state.active (Condition.holds condition state.symbols) :: state.sections⟩ := by
  rw [afterLine_of_directive state opens]
  rfl

theorem afterLine_head (symbols : Symbols) (innermost : Section) (outer : List Section)
    {line : List Char} {head : Head} (heads : Directive.ofLine? line = some head.directive) :
    PassState.afterLine ⟨symbols, innermost :: outer⟩ line =
      ⟨symbols, head.enter symbols innermost :: outer⟩ := by
  rw [afterLine_of_directive _ heads, next_head]

theorem afterLine_closing (symbols : Symbols) (innermost : Section) (outer : List Section)
    {closing : List Char} (closes : Directive.ofLine? closing = some .endSection) :
    PassState.afterLine ⟨symbols, innermost :: outer⟩ closing = ⟨symbols, outer⟩ := by
  rw [afterLine_of_directive _ closes]
  rfl

/-! ### Inactive code -/

mutual

/-- A block of inactive code becomes blank and leaves no trace in the state. -/
theorem Block.emitAll_of_inactive {closed : Bool} (block : Block closed) (state : PassState)
    (h : state.active = false) :
    state.emitAll block.lines = block.lines.map blankLine ∧
      (closed = true → state.afterLines block.lines = state) := by
  match block with
  | .nil => exact ⟨rfl, fun _ => rfl⟩
  | .line line inner rest =>
      have hline := afterLine_inner_of_inactive inner h
      obtain ⟨hemit, hafter⟩ := rest.emitAll_of_inactive state h
      refine ⟨?_, fun hclosed => ?_⟩
      · simp [Block.lines, emitAll, emit_of_inactive h, hline, hemit]
      · simp [Block.lines, hline, hafter hclosed]
  | .group opening condition opens branches rest =>
      have hopening := afterLine_opening state opens
      rw [h] at hopening
      obtain ⟨hemit, hafter⟩ := branches.emitAll_of_settled state.symbols
        (.opened false (Condition.holds condition state.symbols)) state.sections rfl (.inl rfl)
      obtain ⟨hemit', hafter'⟩ := rest.emitAll_of_inactive state h
      have hbranches := hafter rfl
      refine ⟨?_, fun hclosed => ?_⟩
      · simp [Block.lines, emitAll, emitAll_append, emit_of_inactive h, hopening, hemit,
          hbranches, hemit']
      · simp [Block.lines, afterLines_append, hopening, hbranches, hafter' hclosed]
  | .unfinished opening condition opens branches =>
      have hopening := afterLine_opening state opens
      rw [h] at hopening
      obtain ⟨hemit, _⟩ := branches.emitAll_of_settled state.symbols
        (.opened false (Condition.holds condition state.symbols)) state.sections rfl (.inl rfl)
      refine ⟨?_, nofun⟩
      simp [Block.lines, emitAll, emit_of_inactive h, hopening, hemit]

/-- Branches of which none can be selected become blank. -/
theorem Branches.emitAll_of_settled {closed : Bool} (branches : Branches closed)
    (symbols : Symbols) (innermost : Section) (outer : List Section)
    (h : innermost.active = false) (hsettled : Settled innermost) :
    PassState.emitAll ⟨symbols, innermost :: outer⟩ branches.lines =
        branches.lines.map blankLine ∧
      (closed = true →
        PassState.afterLines ⟨symbols, innermost :: outer⟩ branches.lines =
          ⟨symbols, outer⟩) := by
  match branches with
  | .last body closing closes =>
      obtain ⟨hemit, hafter⟩ := body.emitAll_of_inactive ⟨symbols, innermost :: outer⟩ h
      have hbody := hafter rfl
      refine ⟨?_, fun _ => ?_⟩
      · simp [Branches.lines, emitAll, emitAll_append, hemit, hbody,
          emit_of_directive _ closes]
      · simp [Branches.lines, afterLines_append, hbody, afterLine_closing _ _ _ closes]
  | .next body line head heads rest =>
      obtain ⟨hemit, hafter⟩ := body.emitAll_of_inactive ⟨symbols, innermost :: outer⟩ h
      have hbody := hafter rfl
      obtain ⟨hemit', hafter'⟩ := rest.emitAll_of_settled symbols
        (head.enter symbols innermost) outer (active_enter_of_settled hsettled head symbols)
        (settled_enter hsettled head symbols)
      refine ⟨?_, fun hclosed => ?_⟩
      · simp [Branches.lines, emitAll, emitAll_append, hemit, hbody,
          emit_of_directive _ heads, afterLine_head _ _ _ heads, hemit']
      · simp [Branches.lines, afterLines_append, hbody, afterLine_head _ _ _ heads,
          hafter' hclosed]
  | .cut body =>
      obtain ⟨hemit, _⟩ := body.emitAll_of_inactive ⟨symbols, innermost :: outer⟩ h
      exact ⟨hemit, nofun⟩

end

/-! ### Active code -/

mutual

/-- A block of active code becomes its text, and the pass goes on with the symbols after it. -/
theorem Block.emitAll_of_active {closed : Bool} (block : Block closed) (state : PassState)
    (h : state.active = true) :
    state.emitAll block.lines = block.text state.symbols ∧
      (closed = true →
        state.afterLines block.lines =
          { state with symbols := block.after state.symbols }) := by
  match block with
  | .nil => exact ⟨rfl, fun _ => rfl⟩
  | .line line inner rest =>
      have hline := afterLine_inner_of_active inner h
      obtain ⟨hemit, hafter⟩ := rest.emitAll_of_active
        { state with symbols := symbolsAfter state.symbols line } h
      refine ⟨?_, fun hclosed => ?_⟩
      · simp [Block.lines, Block.text, emitAll, emit_of_active h, hline, hemit]
      · simp [Block.lines, Block.after, hline, hafter hclosed]
  | .group opening condition opens branches rest =>
      have hopening := afterLine_opening state opens
      rw [h] at hopening
      obtain ⟨hemit, hafter⟩ := branches.emitAll_of_pending state.symbols
        (Condition.holds condition state.symbols) state.sections
      have hbranches := hafter rfl
      obtain ⟨hemit', hafter'⟩ := rest.emitAll_of_active
        { state with
          symbols := branches.after state.symbols (Condition.holds condition state.symbols) } h
      refine ⟨?_, fun hclosed => ?_⟩
      · simp [Block.lines, Block.text, emitAll, emitAll_append, emit_of_directive _ opens,
          hopening, opened_true, hemit, hbranches, hemit']
      · simp [Block.lines, Block.after, afterLines_append, hopening, opened_true, hbranches,
          hafter' hclosed]
  | .unfinished opening condition opens branches =>
      have hopening := afterLine_opening state opens
      rw [h] at hopening
      obtain ⟨hemit, _⟩ := branches.emitAll_of_pending state.symbols
        (Condition.holds condition state.symbols) state.sections
      refine ⟨?_, nofun⟩
      simp [Block.lines, Block.text, emitAll, emit_of_directive _ opens, hopening,
        opened_true, hemit]

/-- Of the branches of a group in active code the first that is selected is active. -/
theorem Branches.emitAll_of_pending {closed : Bool} (branches : Branches closed)
    (symbols : Symbols) (selected : Bool) (outer : List Section) :
    PassState.emitAll ⟨symbols, pending selected :: outer⟩ branches.lines =
        branches.text symbols selected ∧
      (closed = true →
        PassState.afterLines ⟨symbols, pending selected :: outer⟩ branches.lines =
          ⟨branches.after symbols selected, outer⟩) := by
  match branches, selected with
  | .last body closing closes, true =>
      obtain ⟨hemit, hafter⟩ :=
        body.emitAll_of_active ⟨symbols, pending true :: outer⟩ rfl
      have hbody := hafter rfl
      refine ⟨?_, fun _ => ?_⟩
      · simp [Branches.lines, Branches.text, emitAll, emitAll_append, hemit,
          emit_of_directive _ closes]
      · simp [Branches.lines, Branches.after, afterLines_append, hbody,
          afterLine_closing _ _ _ closes]
  | .last body closing closes, false =>
      obtain ⟨hemit, hafter⟩ :=
        body.emitAll_of_inactive ⟨symbols, pending false :: outer⟩ rfl
      have hbody := hafter rfl
      refine ⟨?_, fun _ => ?_⟩
      · simp [Branches.lines, Branches.text, emitAll, emitAll_append, hemit,
          emit_of_directive _ closes]
      · simp [Branches.lines, Branches.after, afterLines_append, hbody,
          afterLine_closing _ _ _ closes]
  | .next body line head heads rest, true =>
      obtain ⟨hemit, hafter⟩ :=
        body.emitAll_of_active ⟨symbols, pending true :: outer⟩ rfl
      have hbody := hafter rfl
      -- The selected branch is over, and with it the group: no later head selects anything.
      obtain ⟨hemit', hafter'⟩ := rest.emitAll_of_settled (body.after symbols)
        (head.enter (body.after symbols) (pending true)) outer
        (active_enter_of_settled settled_pending head _) (settled_enter settled_pending head _)
      refine ⟨?_, fun hclosed => ?_⟩
      · simp [Branches.lines, Branches.text, emitAll, emitAll_append, hemit, hbody,
          emit_of_directive _ heads, afterLine_head _ _ _ heads, hemit']
      · simp [Branches.lines, Branches.after, afterLines_append, hbody,
          afterLine_head _ _ _ heads, hafter' hclosed]
  | .next body line head heads rest, false =>
      obtain ⟨hemit, hafter⟩ :=
        body.emitAll_of_inactive ⟨symbols, pending false :: outer⟩ rfl
      have hbody := hafter rfl
      obtain ⟨hemit', hafter'⟩ :=
        rest.emitAll_of_pending symbols (head.selects symbols) outer
      refine ⟨?_, fun hclosed => ?_⟩
      · simp [Branches.lines, Branches.text, emitAll, emitAll_append, hemit, hbody,
          emit_of_directive _ heads, afterLine_head _ _ _ heads, enter_pending, hemit']
      · simp [Branches.lines, Branches.after, afterLines_append, hbody,
          afterLine_head _ _ _ heads, enter_pending, hafter' hclosed]
  | .cut body, true =>
      obtain ⟨hemit, _⟩ := body.emitAll_of_active ⟨symbols, pending true :: outer⟩ rfl
      exact ⟨by simpa [Branches.lines, Branches.text] using hemit, nofun⟩
  | .cut body, false =>
      obtain ⟨hemit, _⟩ := body.emitAll_of_inactive ⟨symbols, pending false :: outer⟩ rfl
      exact ⟨by simpa [Branches.lines, Branches.text] using hemit, nofun⟩

end

end Nesting

end ResourceLanguage
