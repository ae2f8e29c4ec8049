import ResourceLanguage.Text.Basic

/-!
Preprocessor directives: which lines of a source file are directives, and what they say.
-/

namespace ResourceLanguage

open ResourceLanguage.Text

/-- A preprocessor directive. Conditions and symbol names are trimmed texts without comment. -/
inductive Directive where
  | ifCondition (condition : List Char)
  | elifCondition (condition : List Char)
  | otherwise
  | endSection
  | define (name : List Char)
  | undefine (name : List Char)
  | other
  deriving DecidableEq, Repr

namespace Directive

/-- Space and tab may surround the number sign of a directive. -/
def isIndent (c : Char) : Bool := c == ' ' || c == '\t'

def beforeComment : List Char → List Char
  | [] => []
  | '/' :: '/' :: _ => []
  | c :: cs => c :: beforeComment cs

def ofName (name argument : List Char) : Directive :=
  match String.ofList name with
  | "if" => .ifCondition argument
  | "elif" => .elifCondition argument
  | "else" => .otherwise
  | "endif" => .endSection
  | "define" => .define argument
  | "undef" => .undefine argument
  | _ => .other

/-- The directive on a line: a number sign at the start of the line, then a name of seven-bit
letters, then the argument, which a line break or a comment ends. -/
def ofLine? (line : List Char) : Option Directive :=
  match line.dropWhile isIndent with
  | '#' :: rest =>
      let body := rest.dropWhile isIndent
      let name := body.takeWhile Char.isAlpha
      let argument := (body.dropWhile Char.isAlpha).takeWhile fun c => c != '\r' && c != '\n'
      if name.isEmpty then none
      else some (ofName name (trim (beforeComment argument)))
  | _ => none

end Directive

end ResourceLanguage
