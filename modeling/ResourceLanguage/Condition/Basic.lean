/-!
Conditions of conditional compilation: what follows `#if` and `#elif`.
-/

namespace ResourceLanguage

/-- The conditional compilation symbols that are defined at some point of a source file. -/
abbrev Symbols := List String

def Symbols.define (symbols : Symbols) (name : String) : Symbols :=
  if symbols.contains name then symbols else name :: symbols

def Symbols.undefine (symbols : Symbols) (name : String) : Symbols :=
  symbols.filter (· != name)

inductive Condition where
  | literal (value : Bool)
  | symbol (name : String)
  | not (operand : Condition)
  | same (left right : Condition)
  | differ (left right : Condition)
  | both (left right : Condition)
  | either (left right : Condition)
  deriving DecidableEq, Repr

namespace Condition

/-- The truth value of a condition: a symbol is true when it is defined. -/
def eval (symbols : Symbols) : Condition → Bool
  | .literal value => value
  | .symbol name => symbols.contains name
  | .not operand => !operand.eval symbols
  | .same left right => left.eval symbols == right.eval symbols
  | .differ left right => left.eval symbols != right.eval symbols
  | .both left right => left.eval symbols && right.eval symbols
  | .either left right => left.eval symbols || right.eval symbols

def ofWord (word : String) : Condition :=
  if word = "true" then .literal true
  else if word = "false" then .literal false
  else .symbol word

end Condition

end ResourceLanguage
