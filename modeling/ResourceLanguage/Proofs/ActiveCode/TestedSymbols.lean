import ResourceLanguage.ActiveCode
import ResourceLanguage.Proofs.Condition.Grammar

/-!
Which symbols have a part in the active code of a file. A condition asks for the symbols that it
names and for no others, so two passes over a file go alike as long as their symbols agree on the
names that occur in its conditions.
-/

namespace ResourceLanguage

open ResourceLanguage.Text

/-! ### Symbols that agree on some names -/

namespace Symbols

/-- Two lists of symbols of which neither has one of the names that the other lacks. -/
def AgreeOn (names : List String) (first second : Symbols) : Prop :=
  ∀ name ∈ names, name ∈ first ↔ name ∈ second

instance (names : List String) (first second : Symbols) : Decidable (AgreeOn names first second) :=
  inferInstanceAs (Decidable (∀ name ∈ names, name ∈ first ↔ name ∈ second))

theorem mem_define {symbols : Symbols} {name other : String} :
    other ∈ symbols.define name ↔ other = name ∨ other ∈ symbols := by
  rw [define]
  split
  · rename_i hdefined
    constructor
    · exact .inr
    · rintro (rfl | hother)
      · exact List.contains_iff_mem.mp hdefined
      · exact hother
  · exact List.mem_cons

theorem mem_undefine {symbols : Symbols} {name other : String} :
    other ∈ symbols.undefine name ↔ other ∈ symbols ∧ other ≠ name := by
  rw [undefine, List.mem_filter, bne_iff_ne]

namespace AgreeOn

variable {names : List String} {first second : Symbols}

theorem mono {fewer : List String} (h : AgreeOn names first second) (hsub : fewer ⊆ names) :
    AgreeOn fewer first second :=
  fun name hname => h name (hsub hname)

/-- Whether the name is among those that count makes no difference. -/
theorem define (h : AgreeOn names first second) (name : String) :
    AgreeOn names (first.define name) (second.define name) := by
  intro other hother
  rw [mem_define, mem_define, h other hother]

theorem undefine (h : AgreeOn names first second) (name : String) :
    AgreeOn names (first.undefine name) (second.undefine name) := by
  intro other hother
  rw [mem_undefine, mem_undefine, h other hother]

end AgreeOn

end Symbols

/-! ### The symbols that a condition tests -/

namespace Condition

theorem eval_congr (c : Condition) {first second : Symbols}
    (h : Symbols.AgreeOn c.symbols first second) : c.eval first = c.eval second := by
  induction c with
  | literal value => rfl
  | symbol name =>
      have hname : name ∈ first ↔ name ∈ second := h name List.mem_cons_self
      rw [eval, eval, Bool.eq_iff_iff, List.contains_iff_mem, List.contains_iff_mem, hname]
  | not operand ih => rw [eval, eval, ih h]
  | same left right ihleft ihright | differ left right ihleft ihright
  | both left right ihleft ihright | either left right ihleft ihright =>
      rw [eval, eval, ihleft (h.mono (List.subset_append_left _ _)),
        ihright (h.mono (List.subset_append_right _ _))]

/-- The symbol that a token names. The words `true` and `false` are no symbols. -/
def Token.symbol? : Token → Option String
  | .word name => if name = "true" ∨ name = "false" then none else some name
  | _ => none

/-- A condition has the symbols that its tokens name. -/
theorem Spells.symbols_eq {level : Level} {c : Condition} {ts : List Token}
    (h : Spells level c ts) : c.symbols = ts.filterMap Token.symbol? := by
  induction h with
  | literalTrue => rfl
  | literalFalse => rfl
  | symbol htrue hfalse => simp [symbols, Token.symbol?, htrue, hfalse]
  | not h ih => exact ih
  | parentheses h ih =>
      rw [List.filterMap_cons_none rfl, List.filterMap_append, ← ih]
      exact (List.append_nil _).symm
  | unary h ih | equality h ih | conjunction h ih => exact ih
  | same hleft hright ihleft ihright | differ hleft hright ihleft ihright
  | both hleft hright ihleft ihright | either hleft hright ihleft ihright =>
      rw [symbols, List.filterMap_append, List.filterMap_cons_none rfl, ihleft, ihright]

def tested (text : List Char) : List String := (tokens text).filterMap Token.symbol?

/-- A malformed text holds under no symbols, so there is nothing to agree on. -/
theorem holds_congr (text : List Char) {first second : Symbols}
    (h : Symbols.AgreeOn (tested text) first second) : holds text first = holds text second := by
  rw [holds, holds]
  cases hread : ofTokens? (tokens text) with
  | none => rfl
  | some c =>
      apply c.eval_congr
      rwa [(spells_of_ofTokens? hread).symbols_eq]

end Condition

/-! ### Two passes over the same lines -/

def Directive.tested : Directive → List String
  | .ifCondition condition => Condition.tested condition
  | .elifCondition condition => Condition.tested condition
  | _ => []

def testedOnLine (line : List Char) : List String :=
  (Directive.ofLine? line).elim [] Directive.tested

/-- The symbols that the conditions of a text test. -/
def testedSymbols (code : String) : List String := (rawLines code.toList).flatMap testedOnLine

namespace PassState

/-- Two passes that have the same sections open and whose symbols agree on some names. -/
structure Alike (names : List String) (first second : PassState) : Prop where
  sections : first.sections = second.sections
  symbols : Symbols.AgreeOn names first.symbols second.symbols

namespace Alike

variable {names : List String} {first second : PassState}

theorem active_eq (h : Alike names first second) : first.active = second.active := by
  rw [active, active, h.sections]

theorem modifyInnermost (h : Alike names first second) {f g : Section → Section} (hfg : f = g) :
    Alike names (first.modifyInnermost f) (second.modifyInnermost g) := by
  have hsections := h.sections
  rw [PassState.modifyInnermost, PassState.modifyInnermost, ← hsections, hfg]
  split
  · exact h
  · exact ⟨rfl, h.symbols⟩

theorem next (h : Alike names first second) {directive : Directive}
    (htested : directive.tested ⊆ names) :
    Alike names (first.next directive) (second.next directive) := by
  cases directive with
  | ifCondition condition =>
      have hholds : Condition.holds condition first.symbols =
          Condition.holds condition second.symbols :=
        Condition.holds_congr condition (h.symbols.mono htested)
      refine ⟨?_, h.symbols⟩
      simp only [PassState.next, h.active_eq, hholds, h.sections]
  | elifCondition condition =>
      have hholds : Condition.holds condition first.symbols =
          Condition.holds condition second.symbols :=
        Condition.holds_congr condition (h.symbols.mono htested)
      exact h.modifyInnermost (by rw [hholds])
  | otherwise => exact h.modifyInnermost rfl
  | endSection => exact ⟨congrArg List.tail h.sections, h.symbols⟩
  | define name =>
      simp only [PassState.next, h.active_eq]
      split
      · exact ⟨h.sections, h.symbols.define _⟩
      · exact h
  | undefine name =>
      simp only [PassState.next, h.active_eq]
      split
      · exact ⟨h.sections, h.symbols.undefine _⟩
      · exact h
  | other => exact h

theorem afterLine (h : Alike names first second) {line : List Char}
    (htested : testedOnLine line ⊆ names) :
    Alike names (first.afterLine line) (second.afterLine line) := by
  rw [PassState.afterLine, PassState.afterLine]
  rw [testedOnLine] at htested
  cases hline : Directive.ofLine? line with
  | none => exact h
  | some directive =>
      rw [hline] at htested
      exact h.next htested

theorem emit_eq (h : Alike names first second) (line : List Char) :
    first.emit line = second.emit line := by
  rw [emit, emit, h.active_eq]

theorem emitAll_eq (h : Alike names first second) {lines : List (List Char)}
    (htested : lines.flatMap testedOnLine ⊆ names) :
    first.emitAll lines = second.emitAll lines := by
  -- The names stay fixed for the whole text: a later line may ask for what an earlier one defines.
  induction lines generalizing first second with
  | nil => rfl
  | cons line lines ih =>
      rw [List.flatMap_cons, List.append_subset] at htested
      rw [emitAll, emitAll, h.emit_eq line, ih (h.afterLine htested.1) htested.2]

end Alike

end PassState

theorem activeSource_congr {code : String} {first second : Symbols}
    (h : Symbols.AgreeOn (testedSymbols code) first second) :
    activeSource code first = activeSource code second := by
  have hstart : PassState.Alike (testedSymbols code) (.initial first) (.initial second) :=
    ⟨rfl, h⟩
  rw [activeSource, activeSource, activeCode, activeCode, hstart.emitAll_eq (List.Subset.refl _)]

/-- Symbols act only through the names that are tested. Two lists of symbols that agree on them give
the same active code, whatever the text defines and undefines on its way; the order of the symbols,
repetitions and symbols that no condition names have no part in it. -/
theorem activeSource_of_agreeOn_tested (code : String) :
    (∀ first second, Symbols.AgreeOn (testedSymbols code) first second →
      activeSource code first = activeSource code second) ∧
    (∀ first second : Symbols, first ⊆ second → second ⊆ first →
      activeSource code first = activeSource code second) ∧
    ∀ symbols unrelated : Symbols, (∀ name ∈ unrelated, name ∉ testedSymbols code) →
      activeSource code (symbols ++ unrelated) = activeSource code symbols := by
  refine ⟨fun first second h => activeSource_congr h, ?_, ?_⟩
  · intro first second hfirst hsecond
    apply activeSource_congr
    intro name _
    exact ⟨fun h => hfirst h, fun h => hsecond h⟩
  · intro symbols unrelated hunrelated
    apply activeSource_congr
    intro name hname
    rw [List.mem_append, or_iff_left]
    exact fun h => hunrelated name h hname

/-- The text defines one of the tested symbols and undefines another. -/
theorem activeSource_of_agreeOn_tested_redefined :
    let code := "#define LOCAL\n#if LOCAL && (DEBUG || !NET6)\nclass A { }\n#elif true\n" ++
      "class B { }\n#endif\n#undef DEBUG\n#if DEBUG\nclass C { }\n#endif\n"
    testedSymbols code = ["LOCAL", "DEBUG", "NET6", "DEBUG"] ∧
      Symbols.AgreeOn (testedSymbols code) ["DEBUG", "TRACE", "DEBUG"] ["B", "DEBUG"] ∧
      activeSource code ["DEBUG", "TRACE", "DEBUG"] = activeSource code ["B", "DEBUG"] := by
  intro code
  have htested : testedSymbols code = ["LOCAL", "DEBUG", "NET6", "DEBUG"] := by decide +kernel
  have hagree :
      Symbols.AgreeOn (testedSymbols code) ["DEBUG", "TRACE", "DEBUG"] ["B", "DEBUG"] := by
    rw [htested]
    decide
  exact ⟨htested, hagree, (activeSource_of_agreeOn_tested code).1 _ _ hagree⟩

end ResourceLanguage
