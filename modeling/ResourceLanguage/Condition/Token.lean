import ResourceLanguage.Text.Alphanumeric
import ResourceLanguage.Text.Basic

/-!
The tokens of a condition.
-/

namespace ResourceLanguage.Condition

open ResourceLanguage.Text

inductive Token where
  | word (name : String)
  | not
  | same
  | differ
  | both
  | either
  | opening
  | closing
  deriving DecidableEq, Repr

/-- Letters, numbers and the underscore make up words. -/
def isWordChar (c : Char) : Bool := isAlphanumeric c || c == '_'

/-- The tokens of a condition text. White space separates tokens. A character that begins no
token reads as a closing parenthesis. -/
def tokens : List Char → List Token
  | [] => []
  | '(' :: cs => .opening :: tokens cs
  | ')' :: cs => .closing :: tokens cs
  | '!' :: '=' :: cs => .differ :: tokens cs
  | '!' :: cs => .not :: tokens cs
  | '=' :: '=' :: cs => .same :: tokens cs
  | '&' :: '&' :: cs => .both :: tokens cs
  | '|' :: '|' :: cs => .either :: tokens cs
  | c :: cs =>
      if isBlank c then tokens cs
      else if isWordChar c then
        .word (String.ofList (c :: cs.takeWhile isWordChar)) :: tokens (cs.dropWhile isWordChar)
      else .closing :: tokens cs
termination_by cs => cs.length
decreasing_by
  all_goals first
    | exact Nat.lt_succ_of_le (List.dropWhile_sublist _).length_le
    | simp only [List.length_cons]; omega

end ResourceLanguage.Condition
