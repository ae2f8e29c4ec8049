import ResourceLanguage.CSharp.Skip

/-!
How a member of a C# file, namespace or type begins: whether it declares a type or a namespace,
and where its own members start. Every member consumes at least its first token.
-/

namespace ResourceLanguage.CSharp

open ResourceLanguage.Text

/-- The beginning of a namespace or a type. -/
structure Owner where
  kind : Node.Kind
  name : Span
  start : Nat

/-- The namespace or type that ends at `stop`. -/
def Owner.node (owner : Owner) (stop : Nat) (members : List Node) : Node :=
  ⟨owner.kind, ⟨owner.start, stop⟩, false, ⟨.other, owner.name, true, []⟩ :: members⟩

/-- A member that is neither a namespace nor a type. It begins with `first`, and only the nodes in
it are kept. -/
def Node.loose (first : Span) (nodes : List Node) : Node :=
  ⟨.other, ⟨first.start, (nodes.getLast?.elim first (·.span)).stop⟩, false, nodes⟩

/-- How a member begins. -/
inductive Opening where
  /-- The member is complete; `rest` follows it. -/
  | complete (node : Node) (rest : List Token)
  /-- Members in braces follow: `body` is what stands after the opening brace. -/
  | block (owner : Owner) (body : List Token)

namespace Opening

def rest : Opening → List Token
  | complete _ rest => rest
  | block _ body => body

/-- A member that declares neither a type nor a namespace. -/
def other (first : Token) (tail : List Token) : Opening :=
  if first.isMark ';' then complete (.loose first.span []) tail
  else complete (.loose first.span []) (Token.afterMember (if first.opens then 1 else 0) tail)

/-- A type with members in braces, or without members and closed by a semicolon; `tokens` begins
with its name. -/
def type? (kind : TypeKind) (start : Nat) (tokens : List Token) : Option Opening :=
  match tokens with
  | [] => none
  | name :: tokens =>
      if !name.isName then none
      else
        match Token.afterHead 0 tokens with
        | [] => none
        | last :: rest =>
            let owner : Owner := ⟨.type kind, name.span, start⟩
            if last.isMark '\x7b' then some (block owner rest)
            else if last.isMark ';' then some (complete (owner.node last.span.stop []) rest)
            else none

/-- A record; `tokens` follows the word `record`. -/
def record? (start : Nat) (tokens : List Token) : Option Opening :=
  match tokens with
  | word :: rest =>
      if word.isWord "class" || word.isWord "struct" then type? .recordType start rest
      else type? .recordType start tokens
  | [] => none

/-- A delegate type; `tokens` follows the word `delegate`. An anonymous function and a function
pointer begin with the same word. -/
def delegate? (keyword : Token) (start : Nat) (tokens : List Token) : Option Opening :=
  match tokens with
  | [] => none
  | next :: _ =>
      if next.isMark '*' || next.isMark '\x7b' then none
      else
        match Token.delegateName? 0 0 none keyword tokens, Token.afterHead 0 tokens with
        | some name, last :: rest =>
            let owner : Owner := ⟨.type .delegateType, name.span, start⟩
            if last.isMark ';' then some (complete (owner.node last.span.stop []) rest)
            else none
        | _, _ => none

/-- A namespace; `tokens` follows the word `namespace`. -/
def namespace? (start : Nat) (tokens : List Token) : Option Opening :=
  let name := tokens.takeWhile fun token => !token.isMark '\x7b' && !token.isMark ';'
  match name.head?, name.getLast?, tokens.dropWhile fun token =>
      !token.isMark '\x7b' && !token.isMark ';' with
  | some first, some last, next :: rest =>
      let span := ⟨first.span.start, last.span.stop⟩
      if next.isMark ';' then
        some (complete (Owner.node ⟨.namespaceFile, span, start⟩ next.span.stop []) rest)
      else some (block ⟨.namespaceBlock, span, start⟩ rest)
  | _, _, _ => none

/-- The declaration that a keyword begins, if it begins one. -/
def declaration? (start : Nat) (tokens : List Token) : Option Opening :=
  match tokens with
  | [] => none
  | keyword :: tokens =>
      match bracedKind? keyword with
      | some kind => type? kind start tokens
      | none =>
          if keyword.isWord "record" then record? start tokens
          else if keyword.isWord "delegate" then delegate? keyword start tokens
          else if keyword.isWord "namespace" then namespace? start tokens
          else none

/-- How the member that begins with `first` opens. A declaration begins with its first attribute
list or modifier. -/
def ofTokens (first : Token) (tail : List Token) : Opening :=
  if Token.beginGlobalAttribute (first :: tail) then
    complete (.loose first.span []) (Token.afterGroup 0 tail)
  else
    (declaration? first.span.start
      (Token.afterModifiers (Token.afterAttributes 0 (first :: tail)))).getD (other first tail)

theorem length_rest_other (first : Token) (tail : List Token) :
    (other first tail).rest.length ≤ tail.length := by
  unfold other
  split
  · exact Nat.le_refl _
  · exact (Token.afterMember_suffix _ tail).length_le

theorem length_rest_type? {kind : TypeKind} {start : Nat} {tokens : List Token} {o : Opening}
    (h : type? kind start tokens = some o) : o.rest.length < tokens.length := by
  cases tokens with
  | nil => simp [type?] at h
  | cons name tokens =>
      have hs := (Token.afterHead_suffix 0 tokens).length_le
      simp only [type?] at h
      split at h
      · simp at h
      · split at h
        · simp at h
        · rename_i last rest hhead
          rw [hhead, List.length_cons] at hs
          split at h
          · cases h
            simp only [Opening.rest, List.length_cons]
            omega
          · split at h
            · cases h
              simp only [Opening.rest, List.length_cons]
              omega
            · simp at h

theorem length_rest_record? {start : Nat} {tokens : List Token} {o : Opening}
    (h : record? start tokens = some o) : o.rest.length < tokens.length := by
  cases tokens with
  | nil => simp [record?] at h
  | cons word tokens =>
      simp only [record?] at h
      split at h
      · exact Nat.lt_succ_of_lt (length_rest_type? h)
      · exact length_rest_type? h

theorem length_rest_delegate? {keyword : Token} {start : Nat} {tokens : List Token}
    {o : Opening} (h : delegate? keyword start tokens = some o) :
    o.rest.length < tokens.length := by
  cases tokens with
  | nil => simp [delegate?] at h
  | cons next tokens =>
      have hs := (Token.afterHead_suffix 0 (next :: tokens)).length_le
      simp only [delegate?] at h
      split at h
      · simp at h
      · split at h
        · rename_i name last rest _ hhead
          rw [hhead, List.length_cons] at hs
          split at h
          · cases h
            exact hs
          · simp at h
        · simp at h

theorem length_rest_namespace? {start : Nat} {tokens : List Token} {o : Opening}
    (h : namespace? start tokens = some o) : o.rest.length < tokens.length := by
  simp only [namespace?] at h
  split at h
  · rename_i first last next rest _ _ hdrop
    have hs := (List.dropWhile_suffix
      (fun token : Token => !token.isMark '\x7b' && !token.isMark ';') (l := tokens)).length_le
    rw [hdrop, List.length_cons] at hs
    split at h <;> cases h <;> exact hs
  · simp at h

theorem length_rest_declaration? {start : Nat} {tokens : List Token} {o : Opening}
    (h : declaration? start tokens = some o) : o.rest.length < tokens.length := by
  cases tokens with
  | nil => simp [declaration?] at h
  | cons keyword tokens =>
      simp only [declaration?] at h
      refine Nat.lt_succ_of_lt ?_
      split at h
      · exact length_rest_type? h
      · split at h
        · exact length_rest_record? h
        · split at h
          · exact length_rest_delegate? h
          · split at h
            · exact length_rest_namespace? h
            · simp at h

/-- Every member consumes at least its first token. -/
theorem length_rest_ofTokens (first : Token) (tail : List Token) :
    (ofTokens first tail).rest.length ≤ tail.length := by
  unfold ofTokens
  split
  · exact (Token.afterGroup_suffix 0 tail).length_le
  · have hs := ((Token.afterModifiers_suffix _).trans
      (Token.afterAttributes_suffix 0 (first :: tail))).length_le
    cases h : declaration? first.span.start
        (Token.afterModifiers (Token.afterAttributes 0 (first :: tail))) with
    | none => exact length_rest_other first tail
    | some o =>
        have := length_rest_declaration? h
        simp only [List.length_cons] at hs
        simp only [Option.getD_some]
        omega

end Opening

end ResourceLanguage.CSharp
