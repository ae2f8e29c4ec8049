/-!
Patterns for paths: `?` stands for a character, `*` for any text, brackets for a set of
characters, and `**` as a whole component of a path for any number of components.
-/

namespace ResourceLanguage.Glob

inductive PatternFault where
  | wildcards
  | recursiveWildcards
  | range
  deriving DecidableEq, Repr

/-- Why a text is no pattern, and at which character this shows. -/
structure PatternError where
  position : Nat
  fault : PatternFault
  deriving DecidableEq, Repr

def PatternFault.message : PatternFault → String
  | .wildcards => "wildcards are either regular `*` or recursive `**`"
  | .recursiveWildcards => "recursive wildcards must form a single path component"
  | .range => "invalid range pattern"

def PatternError.message (error : PatternError) : String :=
  "Pattern syntax error near position " ++ toString error.position ++ ": " ++ error.fault.message

structure CharRange where
  first : Char
  last : Char
  deriving DecidableEq, Repr

def CharRange.contains (range : CharRange) (c : Char) : Bool := range.first ≤ c && c ≤ range.last

inductive PatternToken where
  | char (c : Char)
  | anyChar
  /-- Any text. -/
  | anyText
  /-- Any number of whole components. -/
  | anyComponents
  | within (ranges : List CharRange)
  | except (ranges : List CharRange)
  deriving DecidableEq, Repr

/-- The character of a token that is no wildcard. -/
def PatternToken.literal? : PatternToken → Option Char
  | .char c => some c
  | _ => none

abbrev Pattern := List PatternToken

/-- The set that the characters between brackets describe. -/
def rangesOf : List Char → List CharRange
  | first :: '-' :: last :: rest => ⟨first, last⟩ :: rangesOf rest
  | c :: rest => ⟨c, c⟩ :: rangesOf rest
  | [] => []

/-- Reads a set after its opening bracket. The first character of a set does not close it. -/
def readSet? (cs : List Char) : Option (PatternToken × List Char) :=
  let finish (make : List CharRange → PatternToken) : List Char →
      Option (PatternToken × List Char)
    | [] => none
    | first :: rest =>
        match rest.dropWhile (· != ']') with
        | [] => none
        | _ :: after => some (make (rangesOf (first :: rest.takeWhile (· != ']'))), after)
  match cs with
  | '!' :: rest => finish .except rest
  | cs => finish .within cs

theorem length_dropWhile_tail_lt {cs : List Char} {p : Char → Bool} {c : Char} {after : List Char}
    (h : cs.dropWhile p = c :: after) : after.length < cs.length := by
  have hsuffix : (c :: after) <:+ cs := h ▸ List.dropWhile_suffix p
  have := hsuffix.length_le
  simp only [List.length_cons] at this
  omega

theorem length_readSet?_lt {cs : List Char} {token : PatternToken} {after : List Char}
    (h : readSet? cs = some (token, after)) : after.length < cs.length := by
  unfold readSet? at h
  split at h
  all_goals
    simp only at h
    split at h
    · contradiction
    split at h
    · contradiction
    next heq =>
      simp only [Option.some.injEq, Prod.mk.injEq] at h
      obtain ⟨_, rfl⟩ := h
      have := length_dropWhile_tail_lt heq
      simp only [List.length_cons]
      omega

/-- Adds `**` after some tokens, which stand in reverse. A second `**` in a row adds nothing, save
at the beginning. -/
def pushComponents (tokens : List PatternToken) : List PatternToken :=
  match tokens with
  | .anyComponents :: _ :: _ => tokens
  | tokens => .anyComponents :: tokens

/-- Reads a pattern from the given position. The tokens and characters before it stand in
reverse. -/
def readPattern (position : Nat) (tokens : List PatternToken) (before : Option Char) :
    List Char → Except PatternError Pattern
  | [] => .ok tokens.reverse
  | '*' :: '*' :: '*' :: _ => .error ⟨position + 2, .wildcards⟩
  | '*' :: '*' :: rest =>
      if before = none ∨ before = some '/' then
        match rest with
        | [] => .ok (pushComponents tokens).reverse
        | c :: rest =>
            if c = '/' then readPattern (position + 3) (pushComponents tokens) (some '/') rest
            else .error ⟨position + 2, .recursiveWildcards⟩
      else .error ⟨position - 1, .recursiveWildcards⟩
  | '*' :: rest => readPattern (position + 1) (.anyText :: tokens) (some '*') rest
  | '?' :: rest => readPattern (position + 1) (.anyChar :: tokens) (some '?') rest
  | '[' :: rest =>
      match _h : readSet? rest with
      | some (token, after) =>
          readPattern (position + 1 + (rest.length - after.length)) (token :: tokens) (some ']')
            after
      | none => .error ⟨position, .range⟩
  | c :: rest => readPattern (position + 1) (.char c :: tokens) (some c) rest
termination_by cs => cs.length
decreasing_by
  all_goals simp only [List.length_cons]
  all_goals first
    | omega
    | have := length_readSet?_lt _h; omega

def Pattern.parse (text : String) : Except PatternError Pattern :=
  readPattern 0 [] none text.toList

/-- Whether a text is taken for a pattern at all. -/
def isPattern (text : String) : Bool := text.toList.any fun c => c = '*' || c = '?'

namespace Pattern

/-- The text that alone matches the pattern, if the pattern has no wildcards. -/
def literal? (pattern : Pattern) : Option String :=
  (pattern.mapM PatternToken.literal?).map String.ofList

/-- Whether the pattern has a `**`. -/
def isRecursive (pattern : Pattern) : Bool := pattern.contains .anyComponents

end Pattern

end ResourceLanguage.Glob
