import ResourceLanguage.Json.Lexical

/-!
Passing over values that nobody asked for, and judging values that are not what was asked for.
-/

namespace ResourceLanguage.Json

inductive Bracket where
  | array
  | object
  deriving DecidableEq, Repr

/-- What may come next: a value, a value or the end of an array, a key, a key or the end of an
object, or what follows a value. -/
inductive Awaiting where
  | value
  | firstValue
  | key
  | firstKey
  | separator
  deriving DecidableEq, Repr

/-- Passes over a word, number or string that begins with `c`. A number that breaks off is not
incomplete but malformed. -/
def skipScalar (c : Char) (cs : List Char) : Except Fault (NotLonger cs) :=
  let shorter (rest : Shorter cs) : NotLonger cs := ⟨rest.1, Nat.le_of_lt rest.2⟩
  if c = 'n' then skipWord ['u', 'l', 'l'] cs
  else if c = 't' then skipWord ['r', 'u', 'e'] cs
  else if c = 'f' then skipWord ['a', 'l', 's', 'e'] cs
  else if c = '"' then do
    let (_, rest) ← readString false cs
    return shorter rest
  else if c = '-' then do
    let (_, rest) ← readNumber .malformed cs
    return shorter rest
  else if c.isDigit then do
    let (_, rest) ← readNumber .malformed (c :: cs)
    return ⟨rest.1, Nat.le_of_lt_succ rest.2⟩
  else .error .malformed

/-- Passes over a key after its opening quote, and over the colon after it. -/
def skipKey (cs : List Char) : Except Fault (NotLonger cs) := do
  let (_, ⟨rest, _⟩) ← readString false cs
  match h : skipBlanks rest with
  | [] => .error .incomplete
  | c :: after =>
      if c = ':' then
        return ⟨after, by have := length_lt_of_skipBlanks h; omega⟩
      else .error .malformed

/-- Passes over the rest of a value inside some open brackets, innermost first. -/
def skipRest (awaiting : Awaiting) (brackets : List Bracket) (cs : List Char) :
    Except Fault (NotLonger cs) :=
  if awaiting = .separator ∧ brackets = [] then .ok ⟨cs, Nat.le_refl _⟩
  else
    match _h : skipBlanks cs with
    | [] => .error .incomplete
    | c :: rest =>
        let proceed (awaiting : Awaiting) (brackets : List Bracket) (after : NotLonger rest) :
            Except Fault (NotLonger cs) := do
          let last ← skipRest awaiting brackets after.1
          return ⟨last.1, by
            have := last.2
            have := after.2
            have := length_lt_of_skipBlanks _h
            omega⟩
        let here : NotLonger rest := ⟨rest, Nat.le_refl _⟩
        if awaiting = .separator then
          match brackets with
          | .array :: outer =>
              if c = ',' then proceed .value brackets here
              else if c = ']' then proceed .separator outer here
              else .error .malformed
          | .object :: outer =>
              if c = ',' then proceed .key brackets here
              else if c = '}' then proceed .separator outer here
              else .error .malformed
          | [] => .error .malformed
        else if awaiting = .firstValue ∧ c = ']' then proceed .separator brackets.tail here
        else if awaiting = .firstKey ∧ c = '}' then proceed .separator brackets.tail here
        else if awaiting = .key ∨ awaiting = .firstKey then
          if c = '"' then do
            let after ← skipKey rest
            proceed .value brackets after
          else .error .malformed
        else if c = '[' then proceed .firstValue (.array :: brackets) here
        else if c = '{' then proceed .firstKey (.object :: brackets) here
        else do
          let after ← skipScalar c rest
          proceed .separator brackets after
termination_by cs.length
decreasing_by
  have := after.2
  have := length_lt_of_skipBlanks _h
  omega

def skipValue (cs : List Char) : Except Fault (NotLonger cs) := skipRest .value [] cs

/-- The fault of a value that is not of the wanted sort. It is `unfit` if it is a value at all, as
far as one has to read to know its sort. -/
def unfitValue (c : Char) (cs : List Char) : Fault :=
  let judge {α : Type} : Except Fault α → Fault
    | .ok _ => .unfit
    | .error fault => fault
  let judgeNumber {text : List Char} : Reading Decimal text → Fault
    | .ok (number, _) => if number.isHuge then .malformed else .unfit
    | .error fault => fault
  if c = 'n' then judge (skipWord ['u', 'l', 'l'] cs)
  else if c = 't' then judge (skipWord ['r', 'u', 'e'] cs)
  else if c = 'f' then judge (skipWord ['a', 'l', 's', 'e'] cs)
  else if c = '"' then judge (readString true cs)
  else if c = '-' then judgeNumber (readNumber .incomplete cs)
  else if c.isDigit then judgeNumber (readNumber .incomplete (c :: cs))
  else if c = '[' ∨ c = '{' then .unfit
  else .malformed

end ResourceLanguage.Json
