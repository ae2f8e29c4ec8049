import ResourceLanguage.Proofs.Condition.Writing

/-!
Characters outside the language of conditions. Such a character is read as a closing parenthesis,
so it makes a text malformed only where no parenthesis is open: a text with such a character is
false unless it has more opening parentheses than closing ones, and then it can be true.
-/

namespace ResourceLanguage.Condition

open ResourceLanguage.Text

/-! ### Texts cut in two -/

/-- The operators of two characters. -/
def operatorPairs : List (Char × Char) := [('!', '='), ('=', '='), ('&', '&'), ('|', '|')]

/-- Texts that share no token when they stand side by side. -/
structure Parted (front back : List Char) : Prop where
  word : ∀ c ∈ back.head?, isWordChar c = false
  operator : ∀ a ∈ front.getLast?, ∀ c ∈ back.head?, (a, c) ∉ operatorPairs

namespace Parted

variable {front back : List Char}

theorem of_suffix {rest : List Char} (h : Parted front back) (hrest : rest <:+ front) :
    Parted rest back where
  word := h.word
  operator a ha := by
    obtain ⟨start, rfl⟩ := hrest
    refine h.operator a ?_
    rw [List.getLast?_append, Option.mem_def.mp ha]
    rfl

theorem tail {c : Char} (h : Parted (c :: front) back) : Parted front back :=
  h.of_suffix (List.suffix_cons c front)

/-- The first character of an operator stays alone if it was alone before. -/
theorem append_ne_cons {a c : Char} (h : Parted (a :: front) back) (hpair : (a, c) ∈ operatorPairs)
    (hfront : ∀ rest, front ≠ c :: rest) (rest : List Char) : front ++ back ≠ c :: rest := by
  intro heq
  cases front with
  | nil =>
      rw [List.nil_append] at heq
      exact h.operator a rfl c (by rw [heq]; rfl) hpair
  | cons d front => exact hfront front (by rw [(List.cons.inj heq).1])

/-- A word ends where the back begins. -/
theorem takeWhile_append (h : Parted front back) :
    (front ++ back).takeWhile isWordChar = front.takeWhile isWordChar := by
  have hback : back.takeWhile isWordChar = [] := by
    cases back with
    | nil => rfl
    | cons c back => simp [h.word c rfl]
  rw [List.takeWhile_append, hback, List.append_nil]
  split
  · rename_i hlength
    exact (List.takeWhile_prefix isWordChar).eq_of_length hlength |>.symm
  · rfl

theorem dropWhile_append (h : Parted front back) :
    (front ++ back).dropWhile isWordChar = front.dropWhile isWordChar ++ back := by
  rw [← List.append_right_inj (front.takeWhile isWordChar), ← List.append_assoc,
    List.takeWhile_append_dropWhile, ← h.takeWhile_append, List.takeWhile_append_dropWhile]

end Parted

/-- A character that begins no token reads as a closing parenthesis. -/
theorem tokens_cons_stray {c : Char} {cs : List Char} (hblank : isBlank c = false)
    (hword : isWordChar c = false) (hmark : c ∉ ['(', ')', '!'])
    (hpair : ∀ d ∈ cs.head?, (c, d) ∉ operatorPairs) :
    tokens (c :: cs) = .closing :: tokens cs := by
  simp only [List.mem_cons, List.not_mem_nil, or_false, not_or] at hmark
  have halone (d : Char) (hcd : (c, d) ∈ operatorPairs) : ∀ rest, cs ≠ d :: rest := by
    rintro rest rfl
    exact hpair d rfl hcd
  rw [tokens]
  · simp [hblank, hword]
  · exact hmark.1
  · exact hmark.2.1
  · exact fun rest hc => absurd hc hmark.2.2
  · exact hmark.2.2
  · rintro rest rfl
    exact halone '=' (by decide) rest
  · rintro rest rfl
    exact halone '&' (by decide) rest
  · rintro rest rfl
    exact halone '|' (by decide) rest

theorem tokens_not {cs : List Char} (h : ∀ rest, cs ≠ '=' :: rest) :
    tokens ('!' :: cs) = .not :: tokens cs := by
  rw [tokens]
  exact h

/-- The tokens of texts side by side, when no token crosses from one to the other. -/
theorem tokens_append {front back : List Char} (h : Parted front back) :
    tokens (front ++ back) = tokens front ++ tokens back := by
  induction front using tokens.induct with
  | case1 => rw [tokens, List.nil_append, List.nil_append]
  | case2 cs ih => rw [List.cons_append, tokens, tokens, ih h.tail, List.cons_append]
  | case3 cs ih => rw [List.cons_append, tokens, tokens, ih h.tail, List.cons_append]
  | case4 cs ih =>
      rw [List.cons_append, List.cons_append, tokens, tokens, ih h.tail.tail, List.cons_append]
  | case5 cs hcs ih =>
      have halone := h.append_ne_cons (c := '=') (by decide) hcs
      rw [List.cons_append, tokens_not halone, tokens_not hcs, ih h.tail, List.cons_append]
  | case6 cs ih =>
      rw [List.cons_append, List.cons_append, tokens, tokens, ih h.tail.tail, List.cons_append]
  | case7 cs ih =>
      rw [List.cons_append, List.cons_append, tokens, tokens, ih h.tail.tail, List.cons_append]
  | case8 cs ih =>
      rw [List.cons_append, List.cons_append, tokens, tokens, ih h.tail.tail, List.cons_append]
  | case9 c cs _ _ _ _ _ _ _ hblank ih =>
      have hmarks := notMem_marks isBlank_marks hblank
      rw [List.cons_append, tokens_cons hmarks, tokens_cons hmarks, if_pos hblank, if_pos hblank,
        ih h.tail]
  | case10 c cs _ _ _ _ _ _ _ hblank hword ih =>
      have hmarks := notMem_marks isWordChar_marks hword
      rw [List.cons_append, tokens_cons hmarks, tokens_cons hmarks, if_neg hblank, if_neg hblank,
        if_pos hword, if_pos hword, h.tail.takeWhile_append, h.tail.dropWhile_append,
        ih (h.tail.of_suffix (List.dropWhile_suffix _)), List.cons_append]
  | case11 c cs hopening hclosing _ hnot hsame hboth heither hblank hword ih =>
      have hmark : c ∉ ['(', ')', '!'] := by
        simpa using ⟨hopening, hclosing, hnot⟩
      have hfront (d : Char) (hcd : (c, d) ∈ operatorPairs) : ∀ rest, cs ≠ d :: rest := by
        simp only [operatorPairs, List.mem_cons, List.not_mem_nil, or_false, Prod.mk.injEq] at hcd
        rcases hcd with ⟨rfl, rfl⟩ | ⟨rfl, rfl⟩ | ⟨rfl, rfl⟩ | ⟨rfl, rfl⟩
        · exact absurd rfl hnot
        · exact fun rest => hsame rest rfl
        · exact fun rest => hboth rest rfl
        · exact fun rest => heither rest rfl
      have hpair {ds : List Char} (hds : ∀ d, (c, d) ∈ operatorPairs → ∀ rest, ds ≠ d :: rest) :
          ∀ d ∈ ds.head?, (c, d) ∉ operatorPairs := by
        intro d hd hcd
        obtain ⟨rest, rfl⟩ := List.head?_eq_some_iff.mp hd
        exact hds d hcd rest rfl
      -- What stood alone in the front stands alone in the whole text.
      have hwhole (d : Char) (hcd : (c, d) ∈ operatorPairs) : ∀ rest, cs ++ back ≠ d :: rest :=
        h.append_ne_cons hcd (hfront d hcd)
      have hblank : isBlank c = false := by simpa using hblank
      have hword : isWordChar c = false := by simpa using hword
      rw [List.cons_append, tokens_cons_stray hblank hword hmark (hpair hwhole),
        tokens_cons_stray hblank hword hmark (hpair hfront), ih h.tail, List.cons_append]

/-! ### Stray characters -/

/-- A character that is no white space and part of no token, wherever a token could be found in the
text around it. -/
structure Stray (front : List Char) (c : Char) (back : List Char) : Prop where
  notBlank : isBlank c = false
  notCovered : ∀ t : Token, t.Writable → ∀ start rest, t.text = start ++ c :: rest →
    start <:+ front → ¬rest <+: back

namespace Stray

variable {front back : List Char} {c : Char}

theorem isWordChar_eq (h : Stray front c back) : isWordChar c = false := by
  rw [← Bool.not_eq_true]
  intro hword
  have hwritable : (Token.word (String.ofList [c])).Writable := by
    refine ⟨by simp, fun d hd => ?_⟩
    obtain rfl : d = c := by simpa using hd
    exact hword
  exact h.notCovered _ hwritable [] [] (by simp [Token.text]) List.nil_suffix List.nil_prefix

theorem notMem_singles (h : Stray front c back) : c ∉ ['(', ')', '!'] := by
  have hsingle (t : Token) (ht : t.Writable) : t.text ≠ [c] := fun htext =>
    h.notCovered t ht [] [] htext List.nil_suffix List.nil_prefix
  intro hmem
  simp only [List.mem_cons, List.not_mem_nil, or_false] at hmem
  rcases hmem with rfl | rfl | rfl
  · exact hsingle .opening trivial rfl
  · exact hsingle .closing trivial rfl
  · exact hsingle .not trivial rfl

end Stray

/-- The operators of two characters are tokens. -/
theorem exists_token_of_mem_operatorPairs {a c : Char} (h : (a, c) ∈ operatorPairs) :
    ∃ t : Token, t.Writable ∧ t.text = [a, c] := by
  simp only [operatorPairs, List.mem_cons, List.not_mem_nil, or_false, Prod.mk.injEq] at h
  rcases h with ⟨rfl, rfl⟩ | ⟨rfl, rfl⟩ | ⟨rfl, rfl⟩ | ⟨rfl, rfl⟩
  · exact ⟨.differ, trivial, rfl⟩
  · exact ⟨.same, trivial, rfl⟩
  · exact ⟨.both, trivial, rfl⟩
  · exact ⟨.either, trivial, rfl⟩

/-- Where a character has to be looked at to see that it is stray: at itself and at its two
neighbours. -/
theorem stray_iff {front back : List Char} {c : Char} :
    Stray front c back ↔ isBlank c = false ∧ isWordChar c = false ∧ c ∉ ['(', ')', '!'] ∧
      (∀ a ∈ front.getLast?, (a, c) ∉ operatorPairs) ∧
      ∀ d ∈ back.head?, (c, d) ∉ operatorPairs := by
  constructor
  · intro h
    refine ⟨h.notBlank, h.isWordChar_eq, h.notMem_singles, fun a ha hpair => ?_,
      fun d hd hpair => ?_⟩
    · obtain ⟨t, ht, htext⟩ := exists_token_of_mem_operatorPairs hpair
      obtain ⟨start, rfl⟩ := List.getLast?_eq_some_iff.mp ha
      exact h.notCovered t ht [a] [] htext (List.suffix_append start [a]) List.nil_prefix
    · obtain ⟨t, ht, htext⟩ := exists_token_of_mem_operatorPairs hpair
      obtain ⟨rest, rfl⟩ := List.head?_eq_some_iff.mp hd
      exact h.notCovered t ht [] [d] htext List.nil_suffix (List.prefix_append [d] rest)
  · rintro ⟨hblank, hword, hsingles, hfront, hback⟩
    refine ⟨hblank, fun t ht start rest htext hstart hrest => ?_⟩
    have hsingle {x : Char} (hx : x ∈ ['(', ')', '!']) (htext : [x] = start ++ c :: rest) :
        False := by
      have hmem : c ∈ [x] := by simp [htext]
      rw [List.mem_singleton.mp hmem] at hsingles
      exact hsingles hx
    have hpair {x y : Char} (hxy : (x, y) ∈ operatorPairs) (htext : [x, y] = start ++ c :: rest) :
        False := by
      cases start with
      | nil =>
          obtain ⟨rfl, rfl⟩ := List.cons.inj htext
          obtain ⟨after, rfl⟩ := hrest
          exact hback y rfl hxy
      | cons first start =>
          obtain ⟨rfl, hlast⟩ := List.cons.inj htext
          obtain ⟨rfl, hc⟩ : start = [] ∧ c :: rest = [y] := by
            simpa using List.singleton_eq_append_iff.mp hlast
          obtain ⟨before, rfl⟩ := hstart
          obtain ⟨rfl, -⟩ := List.cons.inj hc
          exact hfront x (by simp) hxy
    cases t with
    | word name =>
        have hmem : c ∈ name.toList := by
          rw [show name.toList = start ++ c :: rest from htext]
          simp
        rw [ht.2 c hmem] at hword
        cases hword
    | not => exact hsingle (by simp) htext
    | opening => exact hsingle (by simp) htext
    | closing => exact hsingle (by simp) htext
    | same => exact hpair (by decide) htext
    | differ => exact hpair (by decide) htext
    | both => exact hpair (by decide) htext
    | either => exact hpair (by decide) htext

theorem Stray.tokens_eq {front back : List Char} {c : Char} (h : Stray front c back) :
    tokens (front ++ c :: back) = tokens front ++ .closing :: tokens back := by
  obtain ⟨hblank, hword, hsingles, hfront, hback⟩ := stray_iff.mp h
  have hparted : Parted front (c :: back) :=
    ⟨fun d hd => by obtain rfl : c = d := Option.some.inj hd; exact hword,
      fun a ha d hd => by obtain rfl : c = d := Option.some.inj hd; exact hfront a ha⟩
  rw [tokens_append hparted, tokens_cons_stray hblank hword hsingles hback]

theorem tokens_append_closing (front back : List Char) :
    tokens (front ++ ')' :: back) = tokens front ++ .closing :: tokens back := by
  have hparted : Parted front (')' :: back) := by
    refine ⟨fun d hd => ?_, fun a _ d hd => ?_⟩
    · obtain rfl : ')' = d := Option.some.inj hd
      exact isWordChar_marks ')' (by decide)
    · obtain rfl : ')' = d := Option.some.inj hd
      simp [operatorPairs]
  rw [tokens_append hparted, tokens]

/-! ### Parentheses -/

/-- Tokens in which every closing parenthesis has an opening one before it, and the other way
round. -/
structure Balanced (ts : List Token) : Prop where
  total : ts.count .closing = ts.count .opening
  front : ∀ us, us <+: ts → us.count .closing ≤ us.count .opening

namespace Balanced

theorem single {t : Token} (hopening : t ≠ .opening) (hclosing : t ≠ .closing) :
    Balanced [t] := by
  have htotal : [t].count .closing = [t].count .opening := by
    rw [List.count_eq_zero_of_not_mem (by simpa using Ne.symm hclosing),
      List.count_eq_zero_of_not_mem (by simpa using Ne.symm hopening)]
  refine ⟨htotal, fun us hus => ?_⟩
  rcases List.prefix_cons_iff.mp hus with rfl | ⟨rest, rfl, hrest⟩
  · exact Nat.le_refl _
  · rw [List.prefix_nil.mp hrest]
    exact Nat.le_of_eq htotal

theorem append {ls rs : List Token} (hleft : Balanced ls) (hright : Balanced rs) :
    Balanced (ls ++ rs) := by
  refine ⟨by rw [List.count_append, List.count_append, hleft.total, hright.total],
    fun us hus => ?_⟩
  rcases List.prefix_or_prefix_of_prefix hus (List.prefix_append ls rs) with hshort | ⟨rest, rfl⟩
  · exact hleft.front us hshort
  · have hrest := hright.front rest ((List.prefix_append_right_inj ls).mp hus)
    have htotal := hleft.total
    rw [List.count_append, List.count_append]
    omega

/-- Operands joined by an operator. -/
theorem join {ls rs : List Token} (hleft : Balanced ls) {op : Token} (hopening : op ≠ .opening)
    (hclosing : op ≠ .closing) (hright : Balanced rs) : Balanced (ls ++ op :: rs) :=
  hleft.append ((single hopening hclosing).append hright)

theorem parentheses {ts : List Token} (h : Balanced ts) :
    Balanced (.opening :: (ts ++ [.closing])) := by
  have htotal := h.total
  refine ⟨by simp [htotal], fun us hus => ?_⟩
  rcases List.prefix_cons_iff.mp hus with rfl | ⟨rest, rfl, hrest⟩
  · exact Nat.le_refl _
  · rcases List.prefix_concat_iff.mp hrest with rfl | hshort
    · simp [htotal]
    · have hfront := h.front rest hshort
      simp only [List.count_cons, beq_self_eq_true, if_true, reduceCtorEq, beq_iff_eq, if_false]
      omega

end Balanced

theorem Spells.balanced {level : Level} {c : Condition} {ts : List Token}
    (h : Spells level c ts) : Balanced ts := by
  induction h with
  | literalTrue => exact .single (by simp) (by simp)
  | literalFalse => exact .single (by simp) (by simp)
  | symbol => exact .single (by simp) (by simp)
  | not _ ih => exact (Balanced.single (t := .not) (by simp) (by simp)).append ih
  | parentheses _ ih => exact ih.parentheses
  | unary _ ih => exact ih
  | same _ _ ihleft ihright => exact ihleft.join (by simp) (by simp) ihright
  | differ _ _ ihleft ihright => exact ihleft.join (by simp) (by simp) ihright
  | equality _ ih => exact ih
  | both _ _ ihleft ihright => exact ihleft.join (by simp) (by simp) ihright
  | conjunction _ ih => exact ih
  | either _ _ ihleft ihright => exact ihleft.join (by simp) (by simp) ihright

/-- A text that holds has balanced tokens. -/
theorem balanced_of_holds {text : List Char} {symbols : Symbols}
    (h : holds text symbols = true) : Balanced (tokens text) := by
  by_contra hunbalanced
  have hnone : ¬∃ c, Spells .either c (tokens text) := by
    rintro ⟨c, hspells⟩
    exact hunbalanced hspells.balanced
  rw [holds_of_not_spells hnone] at h
  cases h

/-- Every opening parenthesis is a token, and so is every closing one. -/
theorem count_tokens (cs : List Char) :
    (tokens cs).count .opening = cs.count '(' ∧ cs.count ')' ≤ (tokens cs).count .closing := by
  have hcons {c : Char} (hopening : c ≠ '(') (hclosing : c ≠ ')') (ds : List Char) :
      (c :: ds).count '(' = ds.count '(' ∧ (c :: ds).count ')' = ds.count ')' :=
    ⟨List.count_cons_of_ne hopening, List.count_cons_of_ne hclosing⟩
  induction cs using tokens.induct with
  | case1 => simp [tokens]
  | case2 cs ih => simpa [tokens] using ih
  | case3 cs ih => simpa [tokens] using ih
  | case4 cs ih => simpa [tokens] using ih
  | case5 cs hcs ih => simpa [tokens_not hcs] using ih
  | case6 cs ih => simpa [tokens] using ih
  | case7 cs ih => simpa [tokens] using ih
  | case8 cs ih => simpa [tokens] using ih
  | case9 c cs hopening hclosing _ _ _ _ _ hblank ih =>
      rw [tokens_cons (notMem_marks isBlank_marks hblank), if_pos hblank,
        (hcons hopening hclosing cs).1, (hcons hopening hclosing cs).2]
      exact ih
  | case10 c cs hopening hclosing _ _ _ _ _ hblank hword ih =>
      -- A word has no parentheses.
      have hdrop (mark : Char) (hmark : mark ∈ marks) :
          (cs.dropWhile isWordChar).count mark = cs.count mark := by
        have htake : (cs.takeWhile isWordChar).count mark = 0 := by
          refine List.count_eq_zero_of_not_mem fun hmem => ?_
          have hmarkWord := List.all_eq_true.mp List.all_takeWhile mark hmem
          rw [isWordChar_marks mark hmark] at hmarkWord
          cases hmarkWord
        conv_rhs => rw [← List.takeWhile_append_dropWhile (p := isWordChar) (l := cs)]
        rw [List.count_append, htake, Nat.zero_add]
      rw [hdrop '(' (by decide), hdrop ')' (by decide)] at ih
      rw [tokens_cons (notMem_marks isWordChar_marks hword), if_neg hblank, if_pos hword,
        (hcons hopening hclosing cs).1, (hcons hopening hclosing cs).2,
        List.count_cons_of_ne (by simp), List.count_cons_of_ne (by simp)]
      exact ih
  | case11 c cs hopening hclosing _ hnot hsame hboth heither hblank hword ih =>
      have htokens : tokens (c :: cs) = .closing :: tokens cs := by
        rw [tokens, if_neg hblank, if_neg hword] <;> assumption
      rw [htokens, (hcons hopening hclosing cs).1, (hcons hopening hclosing cs).2,
        List.count_cons_of_ne (by simp), List.count_cons_self]
      exact ⟨ih.1, Nat.le_succ_of_le ih.2⟩

/-- A stray character closes a parenthesis that stands open before it. -/
theorem Stray.count_lt_of_holds {front back : List Char} {c : Char} (h : Stray front c back)
    {symbols : Symbols} (hholds : holds (front ++ c :: back) symbols = true) :
    front.count ')' < front.count '(' ∧
      (front ++ c :: back).count ')' < (front ++ c :: back).count '(' := by
  have hbalanced := balanced_of_holds hholds
  rw [h.tokens_eq] at hbalanced
  obtain ⟨hopeningFront, hclosingFront⟩ := count_tokens front
  obtain ⟨hopeningBack, hclosingBack⟩ := count_tokens back
  have hsingles := h.notMem_singles
  simp only [List.mem_cons, List.not_mem_nil, or_false, not_or] at hsingles
  constructor
  · -- The tokens up to the stray character hold one closing parenthesis more than the front.
    have hfront := hbalanced.front (tokens front ++ [.closing]) ⟨tokens back, by simp⟩
    have hopening : [Token.closing].count .opening = 0 := rfl
    simp only [List.count_append, List.count_singleton_self, hopening] at hfront
    omega
  · have htotal := hbalanced.total
    rw [List.count_append, List.count_append, List.count_cons_self,
      List.count_cons_of_ne (by simp)] at htotal
    rw [List.count_append, List.count_append, List.count_cons_of_ne hsingles.2.1,
      List.count_cons_of_ne hsingles.1]
    omega

/-- A character outside the language is read as a closing parenthesis. A text with such a character
is therefore false under all symbols if no parenthesis is open before the character, and if the text
has no more opening parentheses than closing ones; in other texts it may stand in for a closing
parenthesis that is missing. -/
theorem holds_stray {front back : List Char} {c : Char} (h : Stray front c back)
    (symbols : Symbols) :
    holds (front ++ c :: back) symbols = holds (front ++ ')' :: back) symbols ∧
    (front.count '(' ≤ front.count ')' → holds (front ++ c :: back) symbols = false) ∧
    ((front ++ c :: back).count '(' ≤ (front ++ c :: back).count ')' →
      holds (front ++ c :: back) symbols = false) := by
  refine ⟨by rw [holds, holds, h.tokens_eq, tokens_append_closing], fun hclosed => ?_,
    fun hclosed => ?_⟩
  · rw [← Bool.not_eq_true]
    intro hholds
    exact absurd (h.count_lt_of_holds hholds).1 (Nat.not_lt.mpr hclosed)
  · rw [← Bool.not_eq_true]
    intro hholds
    exact absurd (h.count_lt_of_holds hholds).2 (Nat.not_lt.mpr hclosed)

/-- A lone ampersand behind a condition in parentheses. -/
theorem holds_stray_ampersand :
    Stray "(A) ".toList '&' " B".toList ∧ holds "(A) & B".toList ["A", "B"] = false := by
  have hstray : Stray "(A) ".toList '&' " B".toList := by
    refine stray_iff.mpr ⟨by decide, by decide +kernel, by decide, ?_, ?_⟩
    · rintro a ⟨⟩
      decide
    · rintro d ⟨⟩
      decide
  exact ⟨hstray, (holds_stray hstray ["A", "B"]).2.1 (by decide)⟩

/-- Where a parenthesis is open, every stray character closes it. -/
theorem Stray.holds_of_open {c : Char} {name : String} (hname : (Condition.symbol name).WellNamed)
    (h : Stray ('(' :: name.toList) c []) {symbols : Symbols}
    (hdefined : symbols.contains name = true) :
    holds ('(' :: name.toList ++ [c]) symbols = true := by
  have hinner : Spells .either (.symbol name) [.word name] := spells_spelling hname .either
  have htokens : tokens ('(' :: name.toList) = [.opening, .word name] := by
    rw [tokens, tokens_word (hname name List.mem_cons_self).1]
  have hspells : Spells .either (.symbol name) (tokens ('(' :: name.toList ++ [c])) := by
    rw [h.tokens_eq, htokens, tokens]
    exact hinner.parentheses.mono (Nat.zero_le _)
  rw [holds_of_spells hspells, eval, hdefined]

/-- A character outside the language closes a parenthesis, and so does a lone equals sign: the texts
hold although they are malformed. -/
theorem holds_openStray :
    (Stray "(A".toList '$' [] ∧ holds "(A$".toList ["A"] = true) ∧
      Stray "(A".toList '=' [] ∧ holds "(A=".toList ["A"] = true := by
  have hname : (Condition.symbol "A").WellNamed := by decide +kernel
  have hstray {c : Char} (hblank : isBlank c = false) (hword : isWordChar c = false)
      (hsingles : c ∉ ['(', ')', '!']) (hpair : ('A', c) ∉ operatorPairs) :
      Stray "(A".toList c [] := by
    refine stray_iff.mpr ⟨hblank, hword, hsingles, ?_, by simp⟩
    rintro a ⟨⟩
    exact hpair
  have hdollar : Stray "(A".toList '$' [] :=
    hstray (by decide) (by decide +kernel) (by decide) (by decide)
  have hequals : Stray "(A".toList '=' [] :=
    hstray (by decide) (by decide +kernel) (by decide) (by decide)
  exact ⟨⟨hdollar, hdollar.holds_of_open hname rfl⟩, hequals, hequals.holds_of_open hname rfl⟩

end ResourceLanguage.Condition
