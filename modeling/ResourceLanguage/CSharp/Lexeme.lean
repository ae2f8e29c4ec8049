import ResourceLanguage.Text.Basic
import ResourceLanguage.Text.Cut

/-!
The lexemes of a C# text: words, marks, string and character literals, and the trivia between
them. The lexemes of a text concatenate to the text.
-/

namespace ResourceLanguage.CSharp

open ResourceLanguage.Text

inductive Lexeme.Kind where
  /-- A keyword, an identifier or a number. -/
  | word
  /-- A single punctuation character. -/
  | mark (c : Char)
  /-- A string or character literal. -/
  | literal
  /-- White space, a comment, or the rest of a line from a number sign on. -/
  | trivia
  deriving DecidableEq, Repr

structure Lexeme where
  kind : Lexeme.Kind
  text : List Char
  deriving DecidableEq, Repr

namespace Lexeme

/-- White space between tokens, the byte order mark included. -/
def isSpace (c : Char) : Bool := isBlank c || c == '\ufeff'

/-- Characters of words. A backslash begins an escape inside an identifier; beyond the seven-bit
range everything but white space counts. -/
def isWordChar (c : Char) : Bool :=
  c.isAlphanum || c == '_' || c == '\\' || (0x80 ≤ c.toNat && !isSpace c)

def restOfLine (cs : List Char) : Cut cs := Cut.run (fun c => c != '\n' && c != '\r') cs

/-- The rest of a block comment. -/
def blockComment : (cs : List Char) → Cut cs
  | [] => Cut.none _
  | '*' :: '/' :: cs => (Cut.one '/' cs).cons '*'
  | c :: cs => (blockComment cs).cons c

/-- The rest of a literal in which a backslash protects the character after it. -/
def quoted (quote : Char) : (cs : List Char) → Cut cs
  | [] => Cut.none _
  | '\\' :: c :: cs => ((quoted quote cs).cons c).cons '\\'
  | c :: cs => if c = quote then Cut.one c cs else (quoted quote cs).cons c

/-- The rest of a verbatim string, in which a quote is written twice. -/
def verbatim : (cs : List Char) → Cut cs
  | [] => Cut.none _
  | '"' :: '"' :: cs => ((verbatim cs).cons '"').cons '"'
  | c :: cs => if c = '"' then Cut.one c cs else (verbatim cs).cons c

/-- The rest of a raw string, which ends at `quotes` quotes in a row; `seen` of them stand just
before. -/
def raw (quotes seen : Nat) : (cs : List Char) → Cut cs
  | [] => Cut.none _
  | c :: cs =>
      if c = '"' then
        if seen + 1 = quotes then Cut.one c cs else (raw quotes (seen + 1) cs).cons c
      else (raw quotes 0 cs).cons c

/-- The rest of a string after its first quote: two more quotes make it a raw string. -/
def string (cs : List Char) : Cut cs :=
  let quotes := Cut.run (· == '"') cs
  if 2 ≤ quotes.taken.length then
    quotes.append (raw (quotes.taken.length + 1) 0 quotes.rest)
  else quoted '"' cs

/-- The format of an interpolated value and the brace after it. -/
def format : (cs : List Char) → Cut cs
  | [] => Cut.none _
  | c :: cs => if c = '\x7d' then Cut.one c cs else (format cs).cons c

mutual

/-- The kind of the lexeme that begins with `c`, and the rest of it cut from what follows. -/
def scan (c : Char) (cs : List Char) : Kind × Cut cs :=
  if isSpace c then (.trivia, Cut.run isSpace cs)
  else if isWordChar c then (.word, Cut.run isWordChar cs)
  else
    match c with
    | '#' => (.trivia, restOfLine cs)
    | '\'' => (.literal, quoted '\'' cs)
    | '"' => (.literal, string cs)
    | '/' =>
        match cs with
        | '/' :: cs => (.trivia, (restOfLine cs).cons '/')
        | '*' :: cs => (.trivia, (blockComment cs).cons '*')
        | cs => (.mark '/', Cut.none cs)
    | '@' =>
        match cs with
        | '"' :: cs => (.literal, (verbatim cs).cons '"')
        | '$' :: '"' :: cs => (.literal, ((interpolated true cs).cons '"').cons '$')
        | cs => (.word, Cut.run isWordChar cs)
    | '$' =>
        match cs with
        | '@' :: '"' :: cs => (.literal, ((interpolated true cs).cons '"').cons '@')
        | cs =>
            let dollars := Cut.run (· == '$') cs
            let quotes := Cut.run (· == '"') dollars.rest
            let opening := dollars.append quotes
            if 3 ≤ quotes.taken.length then
              (.literal, opening.append
                (rawInterpolated quotes.taken.length (dollars.taken.length + 1) 0 0 opening.rest))
            else if quotes.taken.length = 2 then (.literal, opening)
            else if quotes.taken.length = 1 then
              (.literal, opening.append (interpolated false opening.rest))
            else (.mark '$', Cut.none cs)
    | c => (.mark c, Cut.none cs)
termination_by 2 * cs.length + 1
decreasing_by
  all_goals first
    | exact Nat.lt_succ_of_le (Nat.mul_le_mul_left 2 (Cut.length_rest_le _))
    | simp only [List.length_cons]; omega

/-- The rest of an interpolated string: braces hold code, a doubled brace is text. -/
def interpolated (isVerbatim : Bool) (cs : List Char) : Cut cs :=
  match cs with
  | [] => Cut.none _
  | '\x7b' :: '\x7b' :: cs => ((interpolated isVerbatim cs).cons '\x7b').cons '\x7b'
  | '\x7b' :: cs =>
      let inner := hole 0 0 cs
      (inner.append (interpolated isVerbatim inner.rest)).cons '\x7b'
  | '"' :: '"' :: cs =>
      if isVerbatim then ((interpolated isVerbatim cs).cons '"').cons '"'
      else Cut.one '"' ('"' :: cs)
  | '\\' :: c :: cs =>
      if isVerbatim then (interpolated isVerbatim (c :: cs)).cons '\\'
      else ((interpolated isVerbatim cs).cons c).cons '\\'
  | c :: cs => if c = '"' then Cut.one c cs else (interpolated isVerbatim cs).cons c
termination_by 2 * cs.length
decreasing_by
  all_goals first
    | exact Nat.mul_lt_mul_of_pos_left (Nat.lt_succ_of_le (Cut.length_rest_le _)) (by decide)
    | simp only [List.length_cons]; omega

/-- The rest of a raw interpolated string. Code begins after `dollars` opening braces in a row;
`seen` quotes and `braces` opening braces stand just before. -/
def rawInterpolated (quotes dollars seen braces : Nat) (cs : List Char) : Cut cs :=
  match cs with
  | [] => Cut.none _
  | c :: cs =>
      if c = '"' then
        if seen + 1 = quotes then Cut.one c cs
        else (rawInterpolated quotes dollars (seen + 1) 0 cs).cons c
      else if c = '\x7b' then
        if braces + 1 = dollars then
          let inner := hole 0 0 cs
          (inner.append (rawInterpolated quotes dollars 0 0 inner.rest)).cons c
        else (rawInterpolated quotes dollars 0 (braces + 1) cs).cons c
      else (rawInterpolated quotes dollars 0 0 cs).cons c
termination_by 2 * cs.length
decreasing_by
  all_goals first
    | exact Nat.mul_lt_mul_of_pos_left (Nat.lt_succ_of_le (Cut.length_rest_le _)) (by decide)
    | simp only [List.length_cons]; omega

/-- The code of an interpolation up to its closing brace, inside `rounds` more brackets and
`braces` more braces. A colon outside all of them begins a format, which is text. -/
def hole (rounds braces : Nat) (cs : List Char) : Cut cs :=
  match cs with
  | [] => Cut.none _
  | '\x7d' :: cs =>
      match braces with
      | 0 => Cut.one '\x7d' cs
      | braces + 1 => (hole rounds braces cs).cons '\x7d'
  | '\x7b' :: cs => (hole rounds (braces + 1) cs).cons '\x7b'
  | ':' :: ':' :: cs => ((hole rounds braces cs).cons ':').cons ':'
  | c :: cs =>
      if c = ':' && rounds = 0 && braces = 0 then (format cs).cons c
      else
        let inside :=
          if c = '(' || c = '[' then rounds + 1
          else if c = ')' || c = ']' then rounds - 1
          else rounds
        let lexeme := (scan c cs).2
        (lexeme.append (hole inside braces lexeme.rest)).cons c
termination_by 2 * cs.length
decreasing_by
  all_goals first
    | exact Nat.mul_lt_mul_of_pos_left (Nat.lt_succ_of_le (Cut.length_rest_le _)) (by decide)
    | simp only [List.length_cons]; omega

end

def ofText : List Char → List Lexeme
  | [] => []
  | c :: cs =>
      let (kind, cut) := scan c cs
      { kind, text := c :: cut.taken } :: ofText cut.rest
termination_by cs => cs.length
decreasing_by
  exact Nat.lt_succ_of_le cut.length_rest_le

end Lexeme

end ResourceLanguage.CSharp
