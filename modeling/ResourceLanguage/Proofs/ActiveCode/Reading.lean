import ResourceLanguage.Proofs.ActiveCode.Simulation

/-!
Every text can be read as nested groups, balanced or not, and its active code is what the groups
mean.
-/

namespace ResourceLanguage

open ResourceLanguage.Text

namespace Nesting

/-- A block cannot go on: there is no line left, or one that belongs to the group around it. -/
def Stops (lines : List (List Char)) : Prop := ∀ line, lines.head? = some line → IsStray line

/-- Some lines begin with a block that ends where it has to. An open block ends with the text. -/
def BeginsWithBlock (lines : List (List Char)) : Prop :=
  (∃ (block : Block true) (rest : List (List Char)), block.lines ++ rest = lines ∧ Stops rest) ∨
    ∃ block : Block false, block.lines = lines

def BeginsWithBranches (lines : List (List Char)) : Prop :=
  (∃ (branches : Branches true) (rest : List (List Char)), branches.lines ++ rest = lines) ∨
    ∃ branches : Branches false, branches.lines = lines

theorem beginsWithBlock_line {line : List Char} (inner : IsInner line)
    {lines : List (List Char)} (h : BeginsWithBlock lines) : BeginsWithBlock (line :: lines) := by
  rcases h with ⟨block, rest, rfl, hstops⟩ | ⟨block, rfl⟩
  · exact .inl ⟨.line line inner block, rest, rfl, hstops⟩
  · exact .inr ⟨.line line inner block, rfl⟩

theorem beginsWithBranches_next {body : Block true} {line : List Char} {head : Head}
    (heads : Directive.ofLine? line = some head.directive) {lines : List (List Char)}
    (h : BeginsWithBranches lines) : BeginsWithBranches (body.lines ++ line :: lines) := by
  rcases h with ⟨branches, rest, rfl⟩ | ⟨branches, rfl⟩
  · exact .inl ⟨.next body line head heads branches, rest, by simp [Branches.lines]⟩
  · exact .inr ⟨.next body line head heads branches, rfl⟩

/-- Branches are blocks with heads between them, up to the end of the group or of the text. -/
theorem beginsWithBranches_of_blocks (lines : List (List Char))
    (hblocks : ∀ shorter : List (List Char), shorter.length ≤ lines.length →
      BeginsWithBlock shorter) : BeginsWithBranches lines := by
  rcases hblocks lines (Nat.le_refl _) with ⟨body, rest, rfl, hstops⟩ | ⟨body, rfl⟩
  · cases rest with
    | nil => exact .inr ⟨.cut body, by simp [Branches.lines]⟩
    | cons line rest =>
        have hrest : rest.length < (body.lines ++ line :: rest).length := by
          simp only [List.length_append, List.length_cons]
          omega
        have hnext (head : Head) (heads : Directive.ofLine? line = some head.directive) :
            BeginsWithBranches (body.lines ++ line :: rest) :=
          beginsWithBranches_next heads (beginsWithBranches_of_blocks rest
            fun shorter hshorter => hblocks shorter (Nat.le_trans hshorter (Nat.le_of_lt hrest)))
        obtain ⟨directive, hline, hneeds⟩ := hstops line rfl
        cases directive with
        | elifCondition condition => exact hnext (.elif condition) hline
        | otherwise => exact hnext .otherwise hline
        | endSection => exact .inl ⟨.last body line hline, rest, by simp [Branches.lines]⟩
        | ifCondition | define | undefine | other => cases hneeds
  · exact .inr ⟨.cut body, rfl⟩
termination_by lines.length

theorem beginsWithBlock_group {opening condition : List Char}
    (opens : Directive.ofLine? opening = some (.ifCondition condition))
    {lines : List (List Char)} (hbranches : BeginsWithBranches lines)
    (hrest : ∀ shorter : List (List Char), shorter.length ≤ lines.length →
      BeginsWithBlock shorter) : BeginsWithBlock (opening :: lines) := by
  rcases hbranches with ⟨branches, rest, rfl⟩ | ⟨branches, rfl⟩
  · rcases hrest rest (by simp) with ⟨block, rest, rfl, hstops⟩ | ⟨block, rfl⟩
    · exact .inl ⟨.group opening condition opens branches block, rest, by simp [Block.lines],
        hstops⟩
    · exact .inr ⟨.group opening condition opens branches block, rfl⟩
  · exact .inr ⟨.unfinished opening condition opens branches, rfl⟩

theorem beginsWithBlock (lines : List (List Char)) : BeginsWithBlock lines := by
  cases lines with
  | nil => exact .inl ⟨.nil, [], rfl, nofun⟩
  | cons line lines =>
      -- The recursion is on the number of lines, as the rest after a group is no part of its tree.
      have hshorter (shorter : List (List Char)) (h : shorter.length ≤ lines.length) :
          BeginsWithBlock shorter := beginsWithBlock shorter
      have hstray (hline : IsStray line) : BeginsWithBlock (line :: lines) :=
        .inl ⟨.nil, line :: lines, rfl, by rintro _ ⟨⟩; exact hline⟩
      have hinner (hline : IsInner line) : BeginsWithBlock (line :: lines) :=
        beginsWithBlock_line hline (hshorter lines (Nat.le_refl _))
      cases hline : Directive.ofLine? line with
      | none => exact hinner (by simp [IsInner, hline])
      | some directive =>
          cases directive with
          | ifCondition condition =>
              exact beginsWithBlock_group hline (beginsWithBranches_of_blocks lines hshorter)
                hshorter
          | elifCondition | otherwise | endSection => exact hstray ⟨_, hline, rfl⟩
          | define | undefine | other =>
              exact hinner (by simp [IsInner, hline, Directive.isConditional])
termination_by lines.length
decreasing_by
  simp only [List.length_cons]
  omega

/-- Every sequence of lines can be read as a file. -/
theorem exists_file_lines_eq (lines : List (List Char)) : ∃ file : File, file.lines = lines := by
  rcases beginsWithBlock lines with ⟨block, rest, rfl, hstops⟩ | ⟨block, rfl⟩
  · cases rest with
    | nil => exact ⟨.last block, by simp [File.lines]⟩
    | cons line rest =>
        obtain ⟨file, hfile⟩ := exists_file_lines_eq rest
        exact ⟨.stray block line (hstops line rfl) file, by simp [File.lines, hfile]⟩
  · exact ⟨.last block, rfl⟩
termination_by lines.length
decreasing_by
  subst_vars
  simp only [List.length_append, List.length_cons]
  omega

/-- Outside every section, a line that needs a group has no effect. -/
theorem afterLine_stray (symbols : Symbols) {line : List Char} (stray : IsStray line) :
    (PassState.initial symbols).afterLine line = PassState.initial symbols := by
  obtain ⟨directive, hline, hneeds⟩ := stray
  rw [PassState.afterLine_of_directive _ hline]
  cases directive with
  | elifCondition | otherwise | endSection => rfl
  | ifCondition | define | undefine | other => cases hneeds

/-- The pass over the lines of a file gives what the groups of the file mean. -/
theorem File.emitAll_lines (file : File) (symbols : Symbols) :
    (PassState.initial symbols).emitAll file.lines = file.text symbols := by
  induction file generalizing symbols with
  | last block => exact (block.emitAll_of_active (PassState.initial symbols) rfl).1
  | stray block line stray rest ih =>
      obtain ⟨hemit, hafter⟩ := block.emitAll_of_active (PassState.initial symbols) rfl
      have hblock : (PassState.initial symbols).afterLines block.lines =
          PassState.initial (block.after symbols) := hafter rfl
      have hstray := stray
      obtain ⟨directive, hline, _⟩ := hstray
      rw [File.lines, File.text, PassState.emitAll_append, hemit, hblock, PassState.emitAll,
        PassState.emit_of_directive _ hline, afterLine_stray _ stray, ih]
      rfl

end Nesting

/-- The active code of a source file is what its nested groups of conditional directives mean:
the file can be read as such groups, and every such reading gives the active code. -/
theorem activeSource_eq_text_of_reading (code : String) (symbols : Symbols) :
    (∃ file : Nesting.File, file.lines = rawLines code.toList) ∧
      ∀ file : Nesting.File, file.lines = rawLines code.toList →
        activeSource code symbols = String.ofList (file.text symbols).flatten := by
  refine ⟨Nesting.exists_file_lines_eq _, ?_⟩
  intro file hfile
  rw [activeSource, activeCode, ← hfile, file.emitAll_lines]

end ResourceLanguage
