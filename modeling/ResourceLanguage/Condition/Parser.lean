import ResourceLanguage.Condition.Basic
import ResourceLanguage.Condition.Token

/-!
Reading a condition from its tokens by recursive descent. `||` binds least, then `&&`, then the
left-associative `==` and `!=`, then `!`. Every reader hands back the tokens it left over
together with the fact that it consumed some, which is what makes the descent end.
-/

namespace ResourceLanguage.Condition

/-- What a reader that consumes at least one of the tokens `ts` returns. -/
abbrev Read (ts : List Token) :=
  Option (Condition × { rest : List Token // rest.length < ts.length })

/-- What a reader that may stop at once returns. -/
abbrev ReadTail (ts : List Token) :=
  Option (Condition × { rest : List Token // rest.length ≤ ts.length })

mutual

/-- Operands joined by `||`. -/
def readEither (ts : List Token) : Read ts :=
  match readBoth ts with
  | none => none
  | some (left, rest) =>
      match readEitherTail left rest.1 with
      | none => none
      | some (whole, rest') => some (whole, ⟨rest'.1, Nat.lt_of_le_of_lt rest'.2 rest.2⟩)
termination_by (ts.length, 3)

def readEitherTail (left : Condition) (ts : List Token) : ReadTail ts :=
  match ts with
  | .either :: ts =>
      match readBoth ts with
      | none => none
      | some (right, rest) =>
          match readEitherTail (.either left right) rest.1 with
          | none => none
          | some (whole, rest') =>
              some (whole, ⟨rest'.1, by
                have := rest.2; have := rest'.2; simp only [List.length_cons]; omega⟩)
  | ts => some (left, ⟨ts, Nat.le_refl _⟩)
termination_by (ts.length, 0)
decreasing_by
  · simp_wf
    exact .left _ _ (by omega)
  · simp_wf
    exact .left _ _ (by have := rest.2; omega)

/-- Operands joined by `&&`. -/
def readBoth (ts : List Token) : Read ts :=
  match readEquality ts with
  | none => none
  | some (left, rest) =>
      match readBothTail left rest.1 with
      | none => none
      | some (whole, rest') => some (whole, ⟨rest'.1, Nat.lt_of_le_of_lt rest'.2 rest.2⟩)
termination_by (ts.length, 2)

def readBothTail (left : Condition) (ts : List Token) : ReadTail ts :=
  match ts with
  | .both :: ts =>
      match readEquality ts with
      | none => none
      | some (right, rest) =>
          match readBothTail (.both left right) rest.1 with
          | none => none
          | some (whole, rest') =>
              some (whole, ⟨rest'.1, by
                have := rest.2; have := rest'.2; simp only [List.length_cons]; omega⟩)
  | ts => some (left, ⟨ts, Nat.le_refl _⟩)
termination_by (ts.length, 0)
decreasing_by
  · simp_wf
    exact .left _ _ (by omega)
  · simp_wf
    exact .left _ _ (by have := rest.2; omega)

/-- Operands joined by `==` and `!=`, grouped from the left. -/
def readEquality (ts : List Token) : Read ts :=
  match readUnary ts with
  | none => none
  | some (left, rest) =>
      match readEqualityTail left rest.1 with
      | none => none
      | some (whole, rest') => some (whole, ⟨rest'.1, Nat.lt_of_le_of_lt rest'.2 rest.2⟩)
termination_by (ts.length, 1)

def readEqualityTail (left : Condition) (ts : List Token) : ReadTail ts :=
  match ts with
  | .same :: ts =>
      match readUnary ts with
      | none => none
      | some (right, rest) =>
          match readEqualityTail (.same left right) rest.1 with
          | none => none
          | some (whole, rest') =>
              some (whole, ⟨rest'.1, by
                have := rest.2; have := rest'.2; simp only [List.length_cons]; omega⟩)
  | .differ :: ts =>
      match readUnary ts with
      | none => none
      | some (right, rest) =>
          match readEqualityTail (.differ left right) rest.1 with
          | none => none
          | some (whole, rest') =>
              some (whole, ⟨rest'.1, by
                have := rest.2; have := rest'.2; simp only [List.length_cons]; omega⟩)
  | ts => some (left, ⟨ts, Nat.le_refl _⟩)
termination_by (ts.length, 0)
decreasing_by
  · simp_wf
    exact .left _ _ (by omega)
  · simp_wf
    exact .left _ _ (by have := rest.2; omega)
  · simp_wf
    exact .left _ _ (by omega)
  · simp_wf
    exact .left _ _ (by have := rest.2; omega)

/-- A word, a negation or a condition in parentheses. -/
def readUnary (ts : List Token) : Read ts :=
  match ts with
  | .not :: ts =>
      match readUnary ts with
      | none => none
      | some (operand, rest) => some (.not operand, ⟨rest.1, Nat.lt_succ_of_lt rest.2⟩)
  | .opening :: ts =>
      match readEither ts with
      | none => none
      | some (inner, ⟨.closing :: rest, h⟩) =>
          some (inner, ⟨rest, by simp only [List.length_cons] at h ⊢; omega⟩)
      | some _ => none
  | .word name :: ts => some (ofWord name, ⟨ts, Nat.lt_succ_self _⟩)
  | _ => none
termination_by (ts.length, 0)
decreasing_by
  · simp_wf
    exact .left _ _ (by omega)
  · simp_wf
    exact .left _ _ (by omega)

end

/-- The condition that a list of tokens spells, if it spells exactly one. -/
def ofTokens? (ts : List Token) : Option Condition :=
  match readEither ts with
  | some (whole, ⟨[], _⟩) => some whole
  | _ => none

/-- Whether a condition text holds. A malformed text does not hold. -/
def holds (text : List Char) (symbols : Symbols) : Bool :=
  match ofTokens? (tokens text) with
  | some condition => condition.eval symbols
  | none => false

end ResourceLanguage.Condition
