import ResourceLanguage.Proofs.CSharp.Tree
import ResourceLanguage.Proofs.CSharp.Word

/-!
What the parser reads at the beginning of a member. Main statement: an opening consumes the
tokens before its rest, and the name of a declared type is one of them (`Opening.reads_ofTokens`).
-/

namespace ResourceLanguage.CSharp

open ResourceLanguage.Text

/-- A byte range that begins with one of the tokens and ends with one. -/
def FromTokens (tokens : List Token) (span : Span) : Prop :=
  ∃ first ∈ tokens, ∃ last ∈ tokens, span = ⟨first.span.start, last.span.stop⟩

theorem FromTokens.mono {tokens all : List Token} {span : Span} (h : FromTokens tokens span)
    (hsub : tokens ⊆ all) : FromTokens all span := by
  obtain ⟨first, hfirst, last, hlast, hspan⟩ := h
  exact ⟨first, hsub hfirst, last, hsub hlast, hspan⟩

namespace Token

theorem kind_of_isMark {token : Token} {c : Char} (h : token.isMark c = true) :
    token.kind = .mark c := by
  rwa [isMark, beq_iff_eq] at h

/-- The tokens before the semicolon that ends a head open and close brackets. -/
theorem afterHead_of_cons {parens : Nat} {token last : Token} {tokens rest : List Token}
    (hhead : afterHead parens (token :: tokens) = last :: rest) (hlast : last.isMark ';' = true)
    (htoken : 0 < parens ∨ token.isMark ';' = false) :
    afterHead (if token.opens then parens + 1 else if token.closes then parens - 1 else parens)
      tokens = last :: rest := by
  rw [afterHead] at hhead
  split at hhead
  · rename_i hstop
    obtain ⟨rfl, -⟩ := List.cons.inj hhead
    simp only [Bool.and_eq_true, decide_eq_true_eq] at hstop
    rcases htoken with hparens | hsemicolon
    · omega
    · rw [hlast] at hsemicolon
      cases hsemicolon
  · split at hhead
    · rw [if_pos ‹_›]
      exact hhead
    · split at hhead <;> simp_all

theorem afterHead_of_plain {token last : Token} {tokens rest : List Token}
    (hhead : afterHead 0 (token :: tokens) = last :: rest) (hlast : last.isMark ';' = true)
    (hsemicolon : token.isMark ';' = false) (hopens : token.opens = false) :
    afterHead 0 tokens = last :: rest := by
  have hstep := afterHead_of_cons hhead hlast (.inr hsemicolon)
  rw [hopens] at hstep
  simpa using hstep

/-- The name of a delegate stands before the semicolon that ends its head. -/
theorem mem_of_delegateName? {angles parens : Nat} {name? : Option Token} {previous : Token}
    {tokens rest : List Token} {name last : Token}
    (hname : delegateName? angles parens name? previous tokens = some name)
    (hhead : afterHead parens tokens = last :: rest) (hlast : last.isMark ';' = true) :
    name? = some name ∨
      ∃ front, tokens = front ++ last :: rest ∧ name ∈ front ∧ name.isName = true := by
  have hlater {token : Token} {tokens : List Token} {found : Option Token}
      (h : found = some name ∨
        ∃ front, tokens = front ++ last :: rest ∧ name ∈ front ∧ name.isName = true) :
      found = some name ∨
        ∃ front, token :: tokens = front ++ last :: rest ∧ name ∈ front ∧ name.isName = true := by
    refine h.imp_right ?_
    rintro ⟨front, rfl, hmem, hisName⟩
    exact ⟨token :: front, rfl, List.mem_cons_of_mem token hmem, hisName⟩
  fun_induction delegateName? angles parens name? previous tokens with
  | case1 => cases hname
  | case2 angles parens name? previous token tokens hparens hopens ih =>
      -- Inside brackets, both readers count the same brackets.
      have hstep := afterHead_of_cons hhead hlast (.inl hparens)
      rw [if_pos hopens] at hstep
      exact hlater (ih hname hstep)
  | case3 angles parens name? previous token tokens hparens hopens hcloses ih =>
      have hstep := afterHead_of_cons hhead hlast (.inl hparens)
      rw [if_neg hopens, if_pos hcloses] at hstep
      exact hlater (ih hname hstep)
  | case4 angles parens name? previous token tokens hparens hopens hcloses ih =>
      have hstep := afterHead_of_cons hhead hlast (.inl hparens)
      rw [if_neg hopens, if_neg hcloses] at hstep
      exact hlater (ih hname hstep)
  | case5 angles parens name? previous token tokens hparens hmark ih =>
      obtain rfl : parens = 0 := by omega
      have hkind := kind_of_isMark hmark
      exact hlater (ih hname (afterHead_of_plain hhead hlast (by simp [isMark, hkind])
        (by simp [opens, isMark, hkind])))
  | case6 angles parens name? previous token tokens hparens hless hmark ih =>
      obtain rfl : parens = 0 := by omega
      have hkind := kind_of_isMark hmark
      exact hlater (ih hname (afterHead_of_plain hhead hlast (by simp [isMark, hkind])
        (by simp [opens, isMark, hkind])))
  | case7 => exact .inl hname
  | case8 angles parens name? previous token tokens hparens hless hgreater hfound hopens ih =>
      obtain rfl : parens = 0 := by omega
      have hsemicolon : token.isMark ';' = false := by
        rw [opens, Bool.or_eq_true, Bool.or_eq_true] at hopens
        rcases hopens with (hmark | hmark) | hmark <;> simp [isMark, kind_of_isMark hmark]
      have hstep := afterHead_of_cons hhead hlast (.inr hsemicolon)
      rw [if_pos hopens] at hstep
      exact hlater (ih hname hstep)
  | case9 angles parens name? previous token tokens hparens hless hgreater hfound hopens hword ih =>
      obtain rfl : parens = 0 := by omega
      rw [Bool.and_eq_true, decide_eq_true_eq] at hword
      obtain ⟨text, hkind⟩ := kind_of_isName hword.2
      have hstep := afterHead_of_plain hhead hlast (by simp [isMark, hkind]) (by simpa using hopens)
      rcases ih hname hstep with heq | hmem
      · obtain ⟨front, hfront⟩ := afterHead_suffix 0 tokens
        rw [hstep] at hfront
        cases heq
        exact .inr ⟨name :: front, by rw [← hfront]; rfl, List.mem_cons_self, hword.2⟩
      · exact hlater (.inr hmem)
  | case10 => cases hname
  | case11 angles parens name? previous token tokens hparens hless hgreater hfound hopens hword
      hsemicolon ih =>
      obtain rfl : parens = 0 := by omega
      exact hlater (ih hname (afterHead_of_plain hhead hlast (by simpa using hsemicolon)
        (by simpa using hopens)))

end Token

/-- The beginning of a namespace or type is read from the tokens, and `rest` is left. The name of a
type is a word. -/
structure Owner.Reads (start : Nat) (tokens rest : List Token) (owner : Owner) : Prop where
  start : owner.start = start
  name : ∃ front names middle first last, tokens = front ++ (names ++ (middle ++ rest)) ∧
    names.head? = some first ∧ names.getLast? = some last ∧
    owner.name = ⟨first.span.start, last.span.stop⟩
  word : ∀ kind, owner.kind = .type kind →
    ∃ token ∈ tokens, token.isName = true ∧ owner.name = token.span

namespace Owner.Reads

theorem of_suffix {start : Nat} {tokens all rest : List Token} {owner : Owner}
    (h : owner.Reads start tokens rest) (hsuffix : tokens <:+ all) :
    owner.Reads start all rest := by
  obtain ⟨before, rfl⟩ := hsuffix
  refine ⟨h.start, ?_, fun kind hkind => ?_⟩
  · obtain ⟨front, names, middle, first, last, htokens, hname⟩ := h.name
    exact ⟨before ++ front, names, middle, first, last, by rw [htokens, List.append_assoc], hname⟩
  · obtain ⟨token, htoken, hword⟩ := h.word kind hkind
    exact ⟨token, List.mem_append_right before htoken, hword⟩

/-- The name of a type is one word between the other tokens. -/
theorem of_word {tokens front middle rest : List Token} {name : Token} (kind : TypeKind)
    (start : Nat) (htokens : tokens = front ++ name :: (middle ++ rest))
    (hname : name.isName = true) :
    Owner.Reads start tokens rest ⟨.type kind, name.span, start⟩ :=
  ⟨rfl, ⟨front, [name], middle, name, name, htokens, rfl, rfl, rfl⟩,
    fun _ _ => ⟨name, by simp [htokens], hname, rfl⟩⟩

/-- At least one token is read. -/
theorem suffix_tail {start : Nat} {first : Token} {tail rest : List Token} {owner : Owner}
    (h : owner.Reads start (first :: tail) rest) : rest <:+ tail := by
  obtain ⟨front, names, middle, begin, finish, htokens, hbegin, -⟩ := h.name
  cases front with
  | nil =>
      cases names with
      | nil => cases hbegin
      | cons name names =>
          obtain ⟨-, rfl⟩ := List.cons.inj htokens
          exact ⟨names ++ middle, List.append_assoc names middle rest⟩
  | cons token front =>
      obtain ⟨-, rfl⟩ := List.cons.inj htokens
      exact ⟨front ++ names ++ middle, by simp⟩

theorem suffix {start : Nat} {first : Token} {tail rest : List Token} {owner : Owner}
    (h : owner.Reads start (first :: tail) rest) : rest <:+ first :: tail :=
  h.suffix_tail.trans (List.suffix_cons first tail)

end Owner.Reads

/-- What an opening that begins at `start` reads from the tokens. -/
inductive Opening.Reads (start : Nat) (tokens : List Token) : Opening → Prop where
  | plain {first : Token} {front rest : List Token} (htokens : tokens = front ++ rest)
      (hfirst : first ∈ front) : Reads start tokens (.complete (.loose first.span []) rest)
  | line {owner : Owner} {last : Token} {rest : List Token}
      (howner : owner.Reads start tokens (last :: rest)) :
      Reads start tokens (.complete (owner.node last.span.stop []) rest)
  | block {owner : Owner} {rest : List Token} (howner : owner.Reads start tokens rest) :
      Reads start tokens (.block owner rest)

namespace Opening

theorem Reads.of_suffix {start : Nat} {tokens all : List Token} {o : Opening}
    (h : Reads start tokens o) (hsuffix : tokens <:+ all) : Reads start all o := by
  cases h with
  | plain htokens hfirst =>
      obtain ⟨before, rfl⟩ := hsuffix
      exact .plain (by rw [htokens, List.append_assoc]) (List.mem_append_right before hfirst)
  | line howner => exact .line (howner.of_suffix hsuffix)
  | block howner => exact .block (howner.of_suffix hsuffix)

theorem reads_type? {kind : TypeKind} {start : Nat} {tokens : List Token} {o : Opening}
    (h : type? kind start tokens = some o) : Reads start tokens o := by
  cases tokens with
  | nil => simp [type?] at h
  | cons name tokens =>
      obtain ⟨middle, hmiddle⟩ := Token.afterHead_suffix 0 tokens
      simp only [type?] at h
      split at h
      · cases h
      · rename_i hname
        replace hname : name.isName = true := by simpa using hname
        split at h
        · cases h
        · rename_i last rest hhead
          rw [hhead] at hmiddle
          split at h
          · cases h
            have htokens : name :: tokens = [] ++ name :: ((middle ++ [last]) ++ rest) := by
              rw [← hmiddle, List.append_assoc]
              rfl
            exact .block (.of_word kind start htokens hname)
          · split at h
            · cases h
              have htokens : name :: tokens = [] ++ name :: (middle ++ last :: rest) := by
                rw [← hmiddle]
                rfl
              exact .line (.of_word kind start htokens hname)
            · cases h

theorem reads_record? {start : Nat} {tokens : List Token} {o : Opening}
    (h : record? start tokens = some o) : Reads start tokens o := by
  cases tokens with
  | nil => cases h
  | cons word tokens =>
      simp only [record?] at h
      split at h
      · exact (reads_type? h).of_suffix (List.suffix_cons word tokens)
      · exact reads_type? h

theorem reads_delegate? {keyword : Token} {start : Nat} {tokens : List Token} {o : Opening}
    (h : delegate? keyword start tokens = some o) : Reads start tokens o := by
  cases tokens with
  | nil => cases h
  | cons next tokens =>
      simp only [delegate?] at h
      split at h
      · cases h
      · split at h
        · rename_i name last rest hname hhead
          split at h
          · cases h
            obtain heq | ⟨front, htokens, hmem, hisName⟩ :=
              Token.mem_of_delegateName? hname hhead ‹_›
            · cases heq
            · obtain ⟨front, middle, rfl⟩ := List.append_of_mem hmem
              rw [List.append_assoc] at htokens
              exact .line (.of_word .delegateType start htokens hisName)
          · cases h
        · cases h

theorem reads_namespace? {start : Nat} {tokens : List Token} {o : Opening}
    (h : namespace? start tokens = some o) : Reads start tokens o := by
  simp only [namespace?] at h
  split at h
  · rename_i first last next rest hfirst hlast hdrop
    have htokens := (List.takeWhile_append_dropWhile
      (p := fun token : Token => !token.isMark '\x7b' && !token.isMark ';') (l := tokens)).symm
    rw [hdrop] at htokens
    split at h
    · cases h
      exact .line ⟨rfl, ⟨[], _, [], first, last, htokens, hfirst, hlast, rfl⟩,
        fun kind hkind => by cases hkind⟩
    · cases h
      exact .block ⟨rfl, ⟨[], _, [next], first, last, htokens, hfirst, hlast, rfl⟩,
        fun kind hkind => by cases hkind⟩
  · cases h

theorem reads_declaration? {start : Nat} {tokens : List Token} {o : Opening}
    (h : declaration? start tokens = some o) : Reads start tokens o := by
  cases tokens with
  | nil => cases h
  | cons keyword tokens =>
      simp only [declaration?] at h
      refine Reads.of_suffix ?_ (List.suffix_cons keyword tokens)
      split at h
      · exact reads_type? h
      · split at h
        · exact reads_record? h
        · split at h
          · exact reads_delegate? h
          · split at h
            · exact reads_namespace? h
            · cases h

theorem reads_ofTokens (first : Token) (tail : List Token) :
    Reads first.span.start (first :: tail) (ofTokens first tail) := by
  have hplain {rest : List Token} (hrest : rest <:+ tail) :
      Reads first.span.start (first :: tail) (.complete (.loose first.span []) rest) := by
    obtain ⟨front, rfl⟩ := hrest
    exact .plain (List.cons_append (a := first)).symm List.mem_cons_self
  unfold ofTokens
  split
  · exact hplain (Token.afterGroup_suffix 0 tail)
  · cases h : declaration? first.span.start
        (Token.afterModifiers (Token.afterAttributes 0 (first :: tail))) with
    | some o =>
        exact (reads_declaration? h).of_suffix
          ((Token.afterModifiers_suffix _).trans (Token.afterAttributes_suffix 0 _))
    | none =>
        rw [Option.getD_none, other]
        split
        · exact hplain (List.suffix_refl tail)
        · exact hplain (Token.afterMember_suffix (if first.opens then 1 else 0) tail)

end Opening

theorem exists_of_closeGroup? {tokens rest : List Token} {stop : Nat}
    (h : closeGroup? tokens = some (stop, rest)) :
    ∃ front last, tokens = front ++ last :: rest ∧ stop = last.span.stop := by
  unfold closeGroup? at h
  split at h
  · cases h
  · rename_i brace
    split at h
    · cases h
      exact ⟨[], brace, rfl, rfl⟩
    · cases h
  · rename_i brace next rest
    split at h
    · cases h
    · split at h
      · cases h
        exact ⟨[brace], next, rfl, rfl⟩
      · cases h
        exact ⟨[], brace, rfl, rfl⟩

end ResourceLanguage.CSharp
