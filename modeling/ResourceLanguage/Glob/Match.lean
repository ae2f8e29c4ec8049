import ResourceLanguage.Glob.Pattern

/-!
Matching texts against patterns.
-/

namespace ResourceLanguage.Glob

/-- Outcome of an attempt. `exhausted` says that the text came to its end too early, in which
case no wildcard before could do better by taking more. -/
inductive Attempt where
  | matched
  | mismatched
  | exhausted
  deriving DecidableEq, Repr

/-- Whether a token that stands for one character stands for this one. -/
def PatternToken.accepts (token : PatternToken) (c : Char) : Bool :=
  match token with
  | .char expected => c = expected
  | .anyChar => true
  | .within ranges => ranges.any (·.contains c)
  | .except ranges => !ranges.any (·.contains c)
  | .anyText | .anyComponents => false

/-- Lets a wildcard take more and more of the text until `next` does not mismatch. With
`wholeComponents` it takes whole components only. When it has taken all, `atEnd` decides. -/
def tryWildcard (wholeComponents : Bool) (next : List Char → Attempt) (atEnd : Attempt) :
    List Char → Attempt
  | [] => atEnd
  | c :: cs =>
      if wholeComponents && c != '/' then tryWildcard wholeComponents next atEnd cs
      else
        match next cs with
        | .mismatched => tryWildcard wholeComponents next atEnd cs
        | attempt => attempt

/-- Matches a text from its beginning. -/
def attempt : Pattern → List Char → Attempt
  | [], [] => .matched
  | [], _ :: _ => .mismatched
  | .anyText :: pattern, cs =>
      match attempt pattern cs with
      | .mismatched => tryWildcard false (attempt pattern) (attempt pattern []) cs
      | result => result
  | .anyComponents :: pattern, cs =>
      match attempt pattern cs with
      | .mismatched => tryWildcard true (attempt pattern) (attempt pattern []) cs
      | result => result
  | _ :: _, [] => .exhausted
  | token :: pattern, c :: cs => if token.accepts c then attempt pattern cs else .mismatched

def Pattern.isMatch (pattern : Pattern) (text : String) : Bool :=
  attempt pattern text.toList = .matched

end ResourceLanguage.Glob
