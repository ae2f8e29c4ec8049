import ResourceLanguage.Proofs.ActiveCode.Layout
import ResourceLanguage.Proofs.ActiveCode.Reading
import ResourceLanguage.Proofs.ActiveCode.TestedSymbols

/-!
How passes compose. A second pass over active code finds no directive and changes nothing. The pass
over a text goes on from a complete part of it as if the rest were a text of its own: of a part that
leaves no group open only its definitions last.
-/

namespace ResourceLanguage

open ResourceLanguage.Text

/-! ### Lines that are written as directives -/

namespace Directive

/-- A line that is written as a directive: a number sign and a letter, with nothing but spaces and
tabs before either of them. -/
def IsWritten (line : List Char) : Prop :=
  ∃ indent gap letter rest, line = indent ++ '#' :: (gap ++ letter :: rest) ∧
    (∀ c ∈ indent, c = ' ' ∨ c = '\t') ∧ (∀ c ∈ gap, c = ' ' ∨ c = '\t') ∧ letter.isAlpha = true

theorem isIndent_iff {c : Char} : isIndent c = true ↔ c = ' ' ∨ c = '\t' := by
  simp [isIndent]

theorem isIndent_of_isAlpha {c : Char} (h : c.isAlpha = true) : isIndent c = false := by
  rw [← Bool.not_eq_true, isIndent_iff]
  rintro (rfl | rfl)
  · cases h
  · cases h

theorem dropWhile_isIndent {indent : List Char} (hindent : ∀ c ∈ indent, c = ' ' ∨ c = '\t')
    {c : Char} (hc : isIndent c = false) (rest : List Char) :
    (indent ++ c :: rest).dropWhile isIndent = c :: rest := by
  rw [List.dropWhile_append_of_pos fun d hd => isIndent_iff.mpr (hindent d hd),
    List.dropWhile_cons_of_neg (by simp [hc])]

theorem exists_indent (cs : List Char) :
    ∃ indent, (∀ c ∈ indent, c = ' ' ∨ c = '\t') ∧ cs = indent ++ cs.dropWhile isIndent :=
  ⟨cs.takeWhile isIndent, fun _ hc => isIndent_iff.mp (List.mem_takeWhile_imp hc),
    List.takeWhile_append_dropWhile.symm⟩

theorem isSome_ofLine?_iff {line : List Char} : (ofLine? line).isSome = true ↔ IsWritten line := by
  constructor
  · intro h
    unfold ofLine? at h
    split at h
    · rename_i rest hline
      obtain ⟨indent, hindent, hsplit⟩ := exists_indent line
      obtain ⟨gap, hgap, hrest⟩ := exists_indent rest
      rw [hline, hrest] at hsplit
      dsimp only at h
      cases hbody : rest.dropWhile isIndent with
      | nil => simp [hbody] at h
      | cons letter tail =>
          refine ⟨indent, gap, letter, tail, by rw [hsplit, hbody], hindent, hgap, ?_⟩
          by_contra hletter
          simp [hbody, hletter] at h
    · cases h
  · rintro ⟨indent, gap, letter, rest, rfl, hindent, hgap, hletter⟩
    unfold ofLine?
    rw [dropWhile_isIndent hindent rfl]
    simp only [dropWhile_isIndent hgap (isIndent_of_isAlpha hletter)]
    simp [hletter]

theorem ofLine?_eq_none_iff {line : List Char} : ofLine? line = none ↔ ¬IsWritten line := by
  rw [← isSome_ofLine?_iff, Option.not_isSome_iff_eq_none]

end Directive

/-! ### A second pass -/

theorem not_isWritten_of_mem_activeSource {code : String} {symbols : Symbols} {line : List Char}
    (h : line ∈ rawLines (activeSource code symbols).toList) : ¬Directive.IsWritten line := by
  rw [activeSource, String.toList_ofList, rawLines_activeCode] at h
  exact Directive.ofLine?_eq_none_iff.mp
    (PassState.ofLine?_of_mem_emitAll _ (fun _ hline => isSpaces_blankLine hline) line h)

theorem activeSource_of_not_isWritten {code : String}
    (h : ∀ line ∈ rawLines code.toList, ¬Directive.IsWritten line) (symbols : Symbols) :
    activeSource code symbols = code := by
  have hplain : ∀ line ∈ rawLines code.toList, Directive.ofLine? line = none :=
    fun line hline => Directive.ofLine?_eq_none_iff.mpr (h line hline)
  rw [activeSource, activeCode, PassState.emitAll_of_plain rfl hplain, flatten_rawLines,
    String.ofList_toList]

/-- A second pass changes nothing, whatever symbols it begins with: no line of active code is
written as a directive, and the texts without such lines are exactly those that a pass leaves as
they are. -/
theorem activeSource_activeSource (code : String) (symbols symbols' : Symbols) :
    activeSource (activeSource code symbols) symbols' = activeSource code symbols ∧
      (∀ line ∈ rawLines (activeSource code symbols).toList, ¬Directive.IsWritten line) ∧
      (activeSource code symbols = code ↔
        ∀ line ∈ rawLines code.toList, ¬Directive.IsWritten line) := by
  have hplain : ∀ line ∈ rawLines (activeSource code symbols).toList,
      ¬Directive.IsWritten line := fun line => not_isWritten_of_mem_activeSource
  refine ⟨activeSource_of_not_isWritten hplain symbols', hplain, fun heq => ?_, fun h => ?_⟩
  · rwa [heq] at hplain
  · exact activeSource_of_not_isWritten h symbols

/-- The second pass begins with a symbol that selects the other branch. -/
theorem activeSource_activeSource_otherBranch :
    let code := "#if X\nclass A { }\n#else\nclass B { }\n\t# undef X\n#endif\n"
    let active := "     \n           \n     \nclass B { }\n          \n      \n"
    activeSource code [] = active ∧ activeSource active ["X"] = active ∧
      "class B { }\n".toList ∈ rawLines active.toList ∧
      ¬Directive.IsWritten "class B { }\n".toList := by
  intro code active
  have hactive : activeSource code [] = active := by
    have hlines : rawLines code.toList = [] ++ "#if X\n".toList ::
        ["class A { }\n".toList, "#else\n".toList, "class B { }\n".toList,
          "\t# undef X\n".toList, "#endif\n".toList] := by decide +kernel
    rw [activeSource, activeCode_of_undefined "X" [] hlines (by decide +kernel)
      (by decide +kernel) rfl]
    decide +kernel
  have hline : "class B { }\n".toList ∈ rawLines active.toList := by decide +kernel
  obtain ⟨hsecond, hplain, -⟩ := activeSource_activeSource code [] ["X"]
  rw [hactive] at hsecond hplain
  exact ⟨hactive, hsecond, hline, hplain _ hline⟩

/-! ### Open groups -/

/-- How many groups are open after a directive, when `depth` are open before it. Outside of all
groups the end of a group has no effect. -/
def Directive.depthAfter (depth : Nat) : Directive → Nat
  | .ifCondition _ => depth + 1
  | .endSection => depth - 1
  | .elifCondition _ | .otherwise | .define _ | .undefine _ | .other => depth

/-- How many groups are open after a line. -/
def depthAfterLine (depth : Nat) (line : List Char) : Nat :=
  (Directive.ofLine? line).elim depth (Directive.depthAfter depth)

/-- How many groups are open at the end of a text. -/
def openGroups (code : String) : Nat := (rawLines code.toList).foldl depthAfterLine 0

namespace PassState

@[simp] theorem length_sections_modifyInnermost (state : PassState) (f : Section → Section) :
    (state.modifyInnermost f).sections.length = state.sections.length := by
  rw [modifyInnermost]
  split
  · rfl
  · rename_i hsections
    simp [hsections]

theorem length_sections_next (state : PassState) (directive : Directive) :
    (state.next directive).sections.length = directive.depthAfter state.sections.length := by
  cases directive with
  | ifCondition condition => rfl
  | elifCondition condition => exact length_sections_modifyInnermost _ _
  | otherwise => exact length_sections_modifyInnermost _ _
  | endSection => exact List.length_tail
  | define name | undefine name =>
      rw [next]
      split <;> rfl
  | other => rfl

theorem length_sections_afterLine (state : PassState) (line : List Char) :
    (state.afterLine line).sections.length = depthAfterLine state.sections.length line := by
  rw [afterLine, depthAfterLine]
  cases Directive.ofLine? line with
  | none => rfl
  | some directive => exact state.length_sections_next directive

/-- The open sections of a pass are as many as the open groups. -/
theorem length_sections_afterLines (state : PassState) (lines : List (List Char)) :
    (state.afterLines lines).sections.length =
      lines.foldl depthAfterLine state.sections.length := by
  induction lines generalizing state with
  | nil => rfl
  | cons line lines ih => rw [afterLines_cons, ih, length_sections_afterLine, List.foldl_cons]

/-! ### Symbols after some lines -/

/-- The lines that stand in active code, directives among them. -/
def activeLines (state : PassState) : List (List Char) → List (List Char)
  | [] => []
  | line :: lines =>
      if state.active then line :: (state.afterLine line).activeLines lines
      else (state.afterLine line).activeLines lines

@[simp] theorem symbols_modifyInnermost (state : PassState) (f : Section → Section) :
    (state.modifyInnermost f).symbols = state.symbols := by
  rw [modifyInnermost]
  split <;> rfl

/-- A line of active code changes the symbols by what it defines. -/
theorem symbols_afterLine_of_active {state : PassState} (h : state.active = true)
    (line : List Char) :
    (state.afterLine line).symbols = Nesting.symbolsAfter state.symbols line := by
  rw [afterLine, Nesting.symbolsAfter]
  cases Directive.ofLine? line with
  | none => rfl
  | some directive => cases directive <;> simp [next, h]

theorem symbols_afterLine_of_inactive {state : PassState} (h : state.active = false)
    (line : List Char) : (state.afterLine line).symbols = state.symbols := by
  rw [afterLine]
  cases Directive.ofLine? line with
  | none => rfl
  | some directive => cases directive <;> simp [next, h]

theorem symbols_afterLines (state : PassState) (lines : List (List Char)) :
    (state.afterLines lines).symbols =
      (state.activeLines lines).foldl Nesting.symbolsAfter state.symbols := by
  induction lines generalizing state with
  | nil => rfl
  | cons line lines ih =>
      rw [afterLines_cons, ih, activeLines]
      cases hactive : state.active with
      | true => rw [symbols_afterLine_of_active hactive, if_pos rfl, List.foldl_cons]
      | false => rw [symbols_afterLine_of_inactive hactive, if_neg Bool.false_ne_true]

end PassState

/-- The symbols after a text: those before it, changed by what its lines of active code define and
undefine. -/
def definedAfter (code : String) (symbols : Symbols) : Symbols :=
  ((PassState.initial symbols).activeLines (rawLines code.toList)).foldl Nesting.symbolsAfter
    symbols

theorem definedAfter_eq (code : String) (symbols : Symbols) :
    definedAfter code symbols =
      ((PassState.initial symbols).afterLines (rawLines code.toList)).symbols :=
  ((PassState.initial symbols).symbols_afterLines (rawLines code.toList)).symm

/-- After a text without open groups nothing is left of the pass but the symbols. -/
theorem afterLines_of_openGroups {code : String} (h : openGroups code = 0) (symbols : Symbols) :
    (PassState.initial symbols).afterLines (rawLines code.toList) =
      .initial (definedAfter code symbols) := by
  have hsections := (PassState.initial symbols).length_sections_afterLines (rawLines code.toList)
  rw [definedAfter_eq]
  generalize (PassState.initial symbols).afterLines (rawLines code.toList) = state at *
  obtain ⟨found, sections⟩ := state
  obtain rfl : sections = [] := List.eq_nil_of_length_eq_zero (hsections.trans h)
  rfl

/-! ### Symbols after nested groups -/

namespace Nesting

theorem depthAfterLine_inner {line : List Char} (inner : IsInner line) (depth : Nat) :
    depthAfterLine depth line = depth := by
  rw [depthAfterLine]
  cases hline : Directive.ofLine? line with
  | none => rfl
  | some directive =>
      have hinner := inner directive hline
      cases directive with
      | define | undefine | other => rfl
      | ifCondition | elifCondition | otherwise | endSection => cases hinner

theorem depthAfterLine_directive {line : List Char} {directive : Directive}
    (h : Directive.ofLine? line = some directive) (depth : Nat) :
    depthAfterLine depth line = directive.depthAfter depth := by
  rw [depthAfterLine, h]
  rfl

theorem depthAfterLine_head {line : List Char} {head : Head}
    (heads : Directive.ofLine? line = some head.directive) (depth : Nat) :
    depthAfterLine depth line = depth := by
  rw [depthAfterLine_directive heads]
  cases head <;> rfl

mutual

/-- A block leaves a group open exactly when it is unfinished. -/
theorem Block.depth_lines {closed : Bool} (block : Block closed) (depth : Nat) :
    (closed = true → block.lines.foldl depthAfterLine depth = depth) ∧
      (closed = false → depth < block.lines.foldl depthAfterLine depth) := by
  match block with
  | .nil => exact ⟨fun _ => rfl, nofun⟩
  | .line line inner rest =>
      rw [Block.lines, List.foldl_cons, depthAfterLine_inner inner]
      exact rest.depth_lines depth
  | .group opening condition opens branches rest =>
      rw [Block.lines, List.cons_append, List.foldl_cons, depthAfterLine_directive opens,
        List.foldl_append]
      rw [Directive.depthAfter, (branches.depth_lines depth).1 rfl]
      exact rest.depth_lines depth
  | .unfinished opening condition opens branches =>
      rw [Block.lines, List.foldl_cons, depthAfterLine_directive opens]
      exact ⟨nofun, (branches.depth_lines depth).2⟩

/-- The end of a group closes it. -/
theorem Branches.depth_lines {closed : Bool} (branches : Branches closed) (depth : Nat) :
    (closed = true → branches.lines.foldl depthAfterLine (depth + 1) = depth) ∧
      (closed = false → depth < branches.lines.foldl depthAfterLine (depth + 1)) := by
  match branches with
  | .last body closing closes =>
      refine ⟨fun _ => ?_, nofun⟩
      rw [Branches.lines, List.foldl_append, (body.depth_lines (depth + 1)).1 rfl, List.foldl_cons,
        depthAfterLine_directive closes]
      rfl
  | .next body line head heads rest =>
      rw [Branches.lines, List.foldl_append, (body.depth_lines (depth + 1)).1 rfl, List.foldl_cons,
        depthAfterLine_head heads]
      exact rest.depth_lines depth
  | @Branches.cut inner body =>
      refine ⟨nofun, fun _ => ?_⟩
      rw [Branches.lines]
      have hbody := body.depth_lines (depth + 1)
      cases inner with
      | true =>
          rw [hbody.1 rfl]
          exact Nat.lt_succ_self depth
      | false => exact Nat.lt_of_succ_lt (hbody.2 rfl)

end

/-- The symbols after a file. A stray directive has no effect on them. -/
def File.after (symbols : Symbols) : File → Symbols
  | .last block => block.after symbols
  | .stray block _ _ rest => rest.after (block.after symbols)

/-- What is left of the pass after a file without open groups are the symbols after the file. -/
theorem File.afterLines_lines (file : File) (symbols : Symbols)
    (h : file.lines.foldl depthAfterLine 0 = 0) :
    (PassState.initial symbols).afterLines file.lines = .initial (file.after symbols) := by
  induction file generalizing symbols with
  | @last closed block =>
      cases closed with
      | true => exact (block.emitAll_of_active (PassState.initial symbols) rfl).2 rfl
      | false =>
          have hopen := (block.depth_lines 0).2 rfl
          rw [File.lines] at h
          omega
  | stray block line stray rest ih =>
      have hblock : (PassState.initial symbols).afterLines block.lines =
          PassState.initial (block.after symbols) :=
        (block.emitAll_of_active (PassState.initial symbols) rfl).2 rfl
      have hline : depthAfterLine 0 line = 0 := by
        obtain ⟨directive, hdirective, hneeds⟩ := stray
        rw [depthAfterLine_directive hdirective]
        cases directive with
        | elifCondition | otherwise | endSection => rfl
        | ifCondition | define | undefine | other => cases hneeds
      rw [File.lines, List.foldl_append, (block.depth_lines 0).1 rfl, List.foldl_cons, hline] at h
      rw [File.lines, PassState.afterLines_append, hblock, PassState.afterLines_cons,
        afterLine_stray _ stray, ih _ h]
      rfl

end Nesting

/-! ### Complete parts of a text -/

/-- Lines are not joined where the first part ends with a line feed. -/
theorem Text.rawLines_append {front : List Char}
    (h : ∀ c, front.getLast? = some c → c = '\n') (back : List Char) :
    rawLines (front ++ back) = rawLines front ++ rawLines back := by
  have hlines := areLines_rawLines front
  rw [← flatten_rawLines front] at h
  conv_lhs => rw [← flatten_rawLines front]
  generalize rawLines front = lines at *
  induction hlines with
  | nil => rfl
  | @last line hne hfeed =>
      rw [List.flatten_singleton] at h
      have hlast := h _ (List.getLast?_eq_some_getLast hne)
      exact absurd (hlast ▸ List.getLast_mem hne) hfeed
  | @cons line lines hfeed _ ih =>
      have hrest : ∀ c, lines.flatten.getLast? = some c → c = '\n' := by
        intro c hc
        refine h c ?_
        rw [List.flatten_cons, List.getLast?_append, hc]
        rfl
      rw [List.flatten_cons, List.append_assoc, List.append_assoc, List.singleton_append,
        rawLines_append_lineFeed hfeed, ih hrest, List.cons_append]

/-- The pass over a text goes on after a complete part as if it began there. -/
theorem activeSource_append_of_openGroups {chunk : String}
    (hends : ∀ c, chunk.toList.getLast? = some c → c = '\n') (hopen : openGroups chunk = 0)
    (rest : String) (symbols : Symbols) :
    activeSource (chunk ++ rest) symbols =
      activeSource chunk symbols ++ activeSource rest (definedAfter chunk symbols) := by
  rw [activeSource, activeSource, activeSource, ← String.ofList_append, activeCode, activeCode,
    activeCode, String.toList_append, rawLines_append hends, PassState.emitAll_append,
    List.flatten_append, afterLines_of_openGroups hopen]

/-! ### Defining a symbol in front -/

namespace Directive

/-- The text of a symbol as a directive can name it: no white space around it, no line break in it
and nothing that begins a comment. -/
structure IsSymbolText (name : List Char) : Prop where
  front : name.head?.any isBlank = false
  back : name.getLast?.any isBlank = false
  carriageReturn : '\r' ∉ name
  lineFeed : '\n' ∉ name
  comment : ¬['/', '/'] <:+: name

theorem dropWhile_of_head? {cs : List Char} (h : cs.head?.any isBlank = false) :
    cs.dropWhile isBlank = cs := by
  cases cs with
  | nil => rfl
  | cons c cs => exact List.dropWhile_cons_of_neg (by simpa using h)

theorem IsSymbolText.trim_cons_space {name : List Char} (h : IsSymbolText name) :
    trim (' ' :: name) = name := by
  have hback : name.reverse.head?.any isBlank = false := by
    rw [List.head?_reverse]
    exact h.back
  rw [trim, List.dropWhile_cons_of_pos rfl, dropWhile_of_head? h.front, dropWhile_of_head? hback,
    List.reverse_reverse]

theorem beforeComment_of_not_isInfix {cs : List Char} (h : ¬['/', '/'] <:+: cs) :
    beforeComment cs = cs := by
  fun_induction beforeComment cs with
  | case1 => rfl
  | case2 rest => exact absurd (List.prefix_append ['/', '/'] rest).isInfix h
  | case3 c cs _ ih => rw [ih fun hinfix => h (List.infix_cons hinfix)]

theorem IsSymbolText.takeWhile_append {name : List Char} (h : IsSymbolText name)
    (ending : LineEnding) :
    (' ' :: (name ++ ending.text.toList)).takeWhile (fun c => c != '\r' && c != '\n') =
      ' ' :: name := by
  have hname : ∀ c ∈ ' ' :: name, (c != '\r' && c != '\n') = true := by
    intro c hc
    rcases List.mem_cons.mp hc with rfl | hc
    · rfl
    · have hreturn : c ≠ '\r' := fun heq => h.carriageReturn (heq ▸ hc)
      have hfeed : c ≠ '\n' := fun heq => h.lineFeed (heq ▸ hc)
      simp [hreturn, hfeed]
  rw [← List.cons_append, List.takeWhile_append_of_pos hname]
  cases ending <;> simp [LineEnding.text]

theorem IsSymbolText.ofLine?_define {name : List Char} (h : IsSymbolText name)
    (ending : LineEnding) :
    ofLine? ("#define ".toList ++ (name ++ ending.text.toList)) = some (.define name) := by
  have hcomment : ¬['/', '/'] <:+: ' ' :: name := by
    intro hinfix
    rcases List.infix_cons_iff.mp hinfix with hprefix | hinside
    · simp at hprefix
    · exact h.comment hinside
  change some (ofName "define".toList (trim (beforeComment
    ((' ' :: (name ++ ending.text.toList)).takeWhile fun c => c != '\r' && c != '\n')))) = _
  rw [h.takeWhile_append, beforeComment_of_not_isInfix hcomment, h.trim_cons_space]
  rfl

end Directive

def defineLine (name : String) (ending : LineEnding) : String :=
  "#define " ++ name ++ ending.text

section

variable {name : String} (h : Directive.IsSymbolText name.toList) (ending : LineEnding)
include h

theorem ofLine?_defineLine :
    Directive.ofLine? (defineLine name ending).toList = some (.define name.toList) := by
  rw [defineLine, String.toList_append, String.toList_append, List.append_assoc]
  exact h.ofLine?_define ending

theorem exists_defineLine_eq :
    ∃ start, '\n' ∉ start ∧ (defineLine name ending).toList = start ++ ['\n'] := by
  have hfeed : '\n' ∉ "#define ".toList ++ name.toList := by
    rw [List.mem_append, not_or]
    exact ⟨by decide, h.lineFeed⟩
  cases ending with
  | lineFeed => exact ⟨_, hfeed, by simp [defineLine, LineEnding.text]⟩
  | carriageReturnLineFeed =>
      refine ⟨"#define ".toList ++ name.toList ++ ['\r'], ?_, by simp [defineLine, LineEnding.text]⟩
      simpa using hfeed

theorem rawLines_defineLine :
    rawLines (defineLine name ending).toList = [(defineLine name ending).toList] := by
  obtain ⟨start, hfeed, hline⟩ := exists_defineLine_eq h ending
  rw [hline, rawLines_append_lineFeed hfeed]
  rfl

theorem openGroups_defineLine : openGroups (defineLine name ending) = 0 := by
  rw [openGroups, rawLines_defineLine h, List.foldl_cons, List.foldl_nil,
    Nesting.depthAfterLine_directive (ofLine?_defineLine h ending)]
  rfl

theorem definedAfter_defineLine (symbols : Symbols) :
    definedAfter (defineLine name ending) symbols = symbols.define name := by
  have hactive : (PassState.initial symbols).activeLines [(defineLine name ending).toList] =
      [(defineLine name ending).toList] := rfl
  rw [definedAfter, rawLines_defineLine h, hactive, List.foldl_cons, List.foldl_nil,
    Nesting.symbolsAfter, ofLine?_defineLine h]
  exact congrArg symbols.define String.ofList_toList

theorem activeSource_defineLine (symbols : Symbols) :
    activeSource (defineLine name ending) symbols =
      String.ofList (blankLine (defineLine name ending).toList) := by
  rw [activeSource, activeCode, rawLines_defineLine h, PassState.emitAll, PassState.emitAll,
    PassState.emit_of_directive _ (ofLine?_defineLine h ending), List.flatten_singleton]

end

/-- The active code of a text in complete parts is that of its parts. A part is complete when it
ends with a line feed and leaves no group open; all that it leaves behind are the symbols that it
defines in active code, as any reading of its nested groups tells. A line that defines a symbol in
front of a text so does what the symbol does among those that the pass begins with. -/
theorem activeSource_of_parts (symbols : Symbols) (rest : String) :
    (∀ chunk : String, chunk = "" ∨ chunk.toList.getLast? = some '\n' → openGroups chunk = 0 →
      activeSource (chunk ++ rest) symbols =
          activeSource chunk symbols ++ activeSource rest (definedAfter chunk symbols) ∧
        (∃ file : Nesting.File, file.lines = rawLines chunk.toList) ∧
        ∀ file : Nesting.File, file.lines = rawLines chunk.toList →
          definedAfter chunk symbols = file.after symbols) ∧
    ∀ (name : String) (ending : LineEnding) (configured : Symbols),
      Directive.IsSymbolText name.toList →
      (∀ other, other ∈ configured ↔ other = name ∨ other ∈ symbols) →
        activeSource (defineLine name ending ++ rest) symbols =
          String.ofList (blankLine (defineLine name ending).toList) ++
            activeSource rest configured := by
  constructor
  · intro chunk hends hopen
    refine ⟨activeSource_append_of_openGroups ?_ hopen rest symbols,
      Nesting.exists_file_lines_eq _, fun file hfile => ?_⟩
    · intro c hc
      rcases hends with rfl | hlast
      · cases hc
      · exact Option.some_inj.mp (hc.symm.trans hlast)
    · have hafter := file.afterLines_lines symbols (by rwa [hfile])
      rw [hfile, afterLines_of_openGroups hopen] at hafter
      exact congrArg PassState.symbols hafter
  · intro name ending configured hname hconfigured
    obtain ⟨start, -, hline⟩ := exists_defineLine_eq hname ending
    have hends : ∀ c, (defineLine name ending).toList.getLast? = some c → c = '\n' := by
      simp [hline]
    rw [activeSource_append_of_openGroups hends (openGroups_defineLine hname ending),
      activeSource_defineLine hname, definedAfter_defineLine hname]
    congr 1
    apply activeSource_congr
    intro other _
    rw [Symbols.mem_define, hconfigured]

/-- A part with an inactive definition and a stray end of a group, and a definition with a carriage
return behind it. -/
theorem activeSource_of_parts_redefined :
    let chunk := "#if X\n#define A\n#endif\n#endif\n#define B // set\n"
    let rest := "#if B && !A\nclass C { }\n#endif\n"
    openGroups chunk = 0 ∧ definedAfter chunk ["D"] = ["B", "D"] ∧
      activeSource (chunk ++ rest) ["D"] =
        activeSource chunk ["D"] ++ activeSource rest ["B", "D"] ∧
      activeSource ("#define B\r\n" ++ rest) ["D"] =
        "          \n" ++ activeSource rest ["D", "B"] := by
  intro chunk rest
  have hopen : openGroups chunk = 0 := by decide +kernel
  have hdefined : definedAfter chunk ["D"] = ["B", "D"] := by
    have hlines : rawLines chunk.toList = "#if X\n".toList ::
        ["#define A\n".toList, "#endif\n".toList, "#endif\n".toList,
          "#define B // set\n".toList] := by decide +kernel
    have hopens : Directive.ofLine? "#if X\n".toList = some (.ifCondition "X".toList) := by
      decide +kernel
    have hname : (Condition.symbol "X").WellNamed := by decide +kernel
    have hholds : Condition.holds "X".toList ["D"] = false := Condition.holds_symbol hname ["D"]
    have hopening : (PassState.initial ["D"]).afterLine "#if X\n".toList =
        ⟨["D"], [.opened true false]⟩ := by
      rw [Nesting.afterLine_opening _ hopens, ← hholds]
      rfl
    rw [definedAfter_eq, hlines, PassState.afterLines_cons, hopening]
    decide +kernel
  have hsymbol : Directive.IsSymbolText "B".toList :=
    ⟨by decide, by decide, by decide, by decide, by decide⟩
  obtain ⟨hparts, hdefine⟩ := activeSource_of_parts ["D"] rest
  refine ⟨hopen, hdefined, ?_, ?_⟩
  · rw [← hdefined]
    exact (hparts chunk (.inr (by decide +kernel)) hopen).1
  · have hline := hdefine "B" .carriageReturnLineFeed ["D", "B"] hsymbol (by simp [or_comm])
    exact hline.trans (by rfl)

end ResourceLanguage
