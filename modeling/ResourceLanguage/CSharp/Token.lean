import ResourceLanguage.CSharp.Lexeme
import ResourceLanguage.Text.Span

/-!
The tokens of a C# text: its lexemes without the trivia, each with its place in the text.
-/

namespace ResourceLanguage.CSharp

open ResourceLanguage.Text

inductive Token.Kind where
  | word (text : String)
  | mark (c : Char)
  | literal
  deriving DecidableEq, Repr

structure Token where
  kind : Token.Kind
  span : Span
  deriving DecidableEq, Repr

namespace Token

/-- The kind of token that a lexeme makes, unless it is trivia. -/
def Kind.ofLexeme? (lexeme : Lexeme) : Option Kind :=
  match lexeme.kind with
  | .word => some (.word (String.ofList lexeme.text))
  | .mark c => some (.mark c)
  | .literal => some .literal
  | .trivia => none

/-- The tokens of consecutive lexemes, of which the first begins at `offset`. -/
def place (offset : Nat) : List Lexeme → List Token
  | [] => []
  | lexeme :: lexemes =>
      let stop := offset + byteSize lexeme.text
      match Kind.ofLexeme? lexeme with
      | some kind => { kind, span := ⟨offset, stop⟩ } :: place stop lexemes
      | none => place stop lexemes

def ofText (cs : List Char) : List Token := place 0 (Lexeme.ofText cs)

def isMark (token : Token) (c : Char) : Bool := token.kind == .mark c

def isWord (token : Token) (text : String) : Bool := token.kind == .word text

/-- Whether the token can name something: a word that does not begin with a digit. -/
def isName (token : Token) : Bool :=
  match token.kind with
  | .word text => !(text.toList.head?.any Char.isDigit)
  | _ => false

def opens (token : Token) : Bool :=
  token.isMark '(' || token.isMark '[' || token.isMark '\x7b'

def closes (token : Token) : Bool :=
  token.isMark ')' || token.isMark ']' || token.isMark '\x7d'

end Token

end ResourceLanguage.CSharp
