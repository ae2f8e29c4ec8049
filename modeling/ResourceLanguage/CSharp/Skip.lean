import ResourceLanguage.CSharp.Node
import ResourceLanguage.CSharp.Token

/-!
Passing over the parts of a C# member that are of no interest: attribute lists, modifiers, the
rest of a declaration's head, and members that declare neither a type nor a namespace. Such a
member ends with a semicolon or with a closing brace; what follows that brace inside the same
member (an initializer, a call) is passed over as one more member.
-/

namespace ResourceLanguage.CSharp

open ResourceLanguage.Text

/-- Words that may stand before the keyword of a declaration. -/
def modifiers : List String :=
  ["abstract", "async", "const", "extern", "file", "fixed", "internal", "new", "override",
   "partial", "private", "protected", "public", "readonly", "ref", "required", "sealed", "static",
   "unsafe", "virtual", "volatile"]

/-- The kinds of types whose members stand in braces, by keyword. -/
def bracedKind? (token : Token) : Option TypeKind :=
  if token.isWord "class" then some .classType
  else if token.isWord "struct" then some .structType
  else if token.isWord "interface" then some .interfaceType
  else if token.isWord "enum" then some .enumType
  else none

namespace Token

/-- Drops everything up to the bracket that closes `depth` open brackets and one more. -/
def afterGroup : Nat → List Token → List Token
  | _, [] => []
  | depth, token :: tokens =>
      if token.opens then afterGroup (depth + 1) tokens
      else if token.closes then
        match depth with
        | 0 => tokens
        | depth + 1 => afterGroup depth tokens
      else afterGroup depth tokens

/-- Drops leading attribute lists; `depth` brackets are open. -/
def afterAttributes : Nat → List Token → List Token
  | _, [] => []
  | 0, token :: tokens =>
      if token.isMark '[' then afterAttributes 1 tokens else token :: tokens
  | depth + 1, token :: tokens =>
      if token.opens then afterAttributes (depth + 2) tokens
      else if token.closes then afterAttributes depth tokens
      else afterAttributes (depth + 1) tokens

/-- Whether the tokens begin with an attribute list for the whole assembly or module. -/
def beginGlobalAttribute : List Token → Bool
  | bracket :: target :: colon :: _ =>
      bracket.isMark '[' && (target.isWord "assembly" || target.isWord "module") &&
        colon.isMark ':'
  | _ => false

def afterModifiers : List Token → List Token
  | [] => []
  | token :: tokens =>
      match token.kind with
      | .word text => if modifiers.contains text then afterModifiers tokens else token :: tokens
      | _ => token :: tokens

/-- Drops the rest of a declaration's head: everything before the brace or semicolon that
follows it outside all brackets. -/
def afterHead : Nat → List Token → List Token
  | _, [] => []
  | depth, token :: tokens =>
      if depth = 0 && (token.isMark '\x7b' || token.isMark ';' || token.closes) then
        token :: tokens
      else if token.opens then afterHead (depth + 1) tokens
      else if token.closes then afterHead (depth - 1) tokens
      else afterHead depth tokens

/-- Drops a member: everything through a semicolon outside all brackets or through the brace
that closes the first group in braces. A closing bracket of the surroundings stays. -/
def afterMember : Nat → List Token → List Token
  | _, [] => []
  | depth, token :: tokens =>
      if token.opens then afterMember (depth + 1) tokens
      else if token.closes then
        match depth with
        | 0 => token :: tokens
        | 1 => if token.isMark '\x7d' then tokens else afterMember 0 tokens
        | depth + 2 => afterMember (depth + 1) tokens
      else if depth = 0 && token.isMark ';' then tokens
      else afterMember depth tokens

/-- The name in the head of a delegate: the last name outside angle brackets before the
parameter list. A parenthesis right after a name, or after the brackets of type parameters,
begins the parameter list; any other belongs to a type. -/
def delegateName? (angles parens : Nat) (name? : Option Token) (previous : Token) :
    List Token → Option Token
  | [] => none
  | token :: tokens =>
      if 0 < parens then
        if token.opens then delegateName? angles (parens + 1) name? token tokens
        else if token.closes then delegateName? angles (parens - 1) name? token tokens
        else delegateName? angles parens name? token tokens
      else if token.isMark '<' then delegateName? (angles + 1) parens name? token tokens
      else if token.isMark '>' then delegateName? (angles - 1) parens name? token tokens
      else if token.isMark '(' && angles = 0 && name?.isSome &&
          (previous.isName || previous.isMark '>') then name?
      else if token.opens then delegateName? angles 1 name? token tokens
      else if angles = 0 && token.isName then delegateName? angles parens (some token) token tokens
      else if token.isMark ';' then none
      else delegateName? angles parens name? token tokens

theorem afterGroup_suffix (depth : Nat) (tokens : List Token) :
    afterGroup depth tokens <:+ tokens := by
  fun_induction afterGroup depth tokens <;> simp_all [List.suffix_cons_iff]

theorem afterAttributes_suffix (depth : Nat) (tokens : List Token) :
    afterAttributes depth tokens <:+ tokens := by
  fun_induction afterAttributes depth tokens <;> simp_all [List.suffix_cons_iff]

theorem afterModifiers_suffix (tokens : List Token) : afterModifiers tokens <:+ tokens := by
  fun_induction afterModifiers tokens <;> simp_all [List.suffix_cons_iff]

theorem afterHead_suffix (depth : Nat) (tokens : List Token) :
    afterHead depth tokens <:+ tokens := by
  fun_induction afterHead depth tokens <;> simp_all [List.suffix_cons_iff]

theorem afterMember_suffix (depth : Nat) (tokens : List Token) :
    afterMember depth tokens <:+ tokens := by
  fun_induction afterMember depth tokens <;> simp_all [List.suffix_cons_iff]

end Token

end ResourceLanguage.CSharp
