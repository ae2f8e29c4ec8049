import ResourceLanguage.CSharp.Opening

/-!
Reading the syntax tree of a C# file from its tokens. Types are declared only among the members
of a file, a namespace or a type, and of the other members only the first token is kept. What is
not closed at the end of the text declares nothing.
-/

namespace ResourceLanguage.CSharp

/-- The offset after the brace that closes a group of members, and the tokens after it. A
semicolon that touches the brace belongs to the group. -/
def closeGroup? : List Token → Option (Nat × List Token)
  | [] => none
  | [brace] => if brace.isMark '\x7d' then some (brace.span.stop, []) else none
  | brace :: next :: rest =>
      if !brace.isMark '\x7d' then none
      else if next.isMark ';' && next.span.start = brace.span.stop then
        some (next.span.stop, rest)
      else some (brace.span.stop, next :: rest)

theorem length_of_closeGroup? {tokens rest : List Token} {stop : Nat}
    (h : closeGroup? tokens = some (stop, rest)) : rest.length ≤ tokens.length := by
  unfold closeGroup? at h
  split at h
  · simp at h
  · split at h <;> simp_all
  · split at h
    · simp at h
    · split at h
      · cases h
        simp only [List.length_cons]
        omega
      · cases h
        simp

theorem length_of_complete {first : Token} {tail rest : List Token} {node : Node}
    (h : Opening.ofTokens first tail = .complete node rest) : rest.length ≤ tail.length := by
  have hrest := Opening.length_rest_ofTokens first tail
  rwa [h] at hrest

theorem length_of_block {first : Token} {tail body : List Token} {owner : Owner}
    (h : Opening.ofTokens first tail = .block owner body) : body.length ≤ tail.length := by
  have hrest := Opening.length_rest_ofTokens first tail
  rwa [h] at hrest

/-- Members read from `tokens`, and the tokens after them. -/
structure Members (tokens : List Token) where
  nodes : List Node
  rest : List Token
  length_le : rest.length ≤ tokens.length

/-- The members up to a closing bracket of the surroundings or the end of the text. -/
def members (tokens : List Token) : Members tokens :=
  match tokens with
  | [] => ⟨[], [], Nat.le_refl _⟩
  | first :: tail =>
      if first.closes then ⟨[], first :: tail, Nat.le_refl _⟩
      else
        match hopening : Opening.ofTokens first tail with
        | .complete node rest =>
            have hlt := length_of_complete hopening
            let more := members rest
            ⟨node :: more.nodes, more.rest, Nat.le_succ_of_le (Nat.le_trans more.length_le hlt)⟩
        | .block owner body =>
            have hlt := length_of_block hopening
            let inner := members body
            match hclose : closeGroup? inner.rest with
            | some (stop, rest) =>
                have hle : rest.length ≤ tail.length :=
                  Nat.le_trans (length_of_closeGroup? hclose) (Nat.le_trans inner.length_le hlt)
                let more := members rest
                ⟨owner.node stop inner.nodes :: more.nodes, more.rest,
                  Nat.le_succ_of_le (Nat.le_trans more.length_le hle)⟩
            | none =>
                ⟨[.loose first.span inner.nodes], inner.rest,
                  Nat.le_succ_of_le (Nat.le_trans inner.length_le hlt)⟩
termination_by tokens.length
decreasing_by
  · exact Nat.lt_succ_of_le hlt
  · exact Nat.lt_succ_of_le hlt
  · exact Nat.lt_succ_of_le hle

/-- The syntax tree of a file. A closing bracket that nothing opened is passed over. -/
def fileNodes (tokens : List Token) : List Node :=
  let read := members tokens
  match _hrest : read.rest with
  | [] => read.nodes
  | _ :: rest => read.nodes ++ fileNodes rest
termination_by tokens.length
decreasing_by
  have := read.length_le
  rw [_hrest, List.length_cons] at this
  omega

def parse (cs : List Char) : List Node := fileNodes (Token.ofText cs)

/-- The grammar of texts without syntax errors. -/
instance : Grammar := ⟨parse⟩

end ResourceLanguage.CSharp
