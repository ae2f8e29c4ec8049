import Mathlib.Data.List.Chain
import ResourceLanguage.Proofs.Condition.Grammar

/-!
Conditions as texts. White space may stand around every token and is needed nowhere: tokens that
would run together when written side by side do not follow each other in a condition. A text
therefore holds exactly when its tokens spell a condition that is true.
-/

namespace ResourceLanguage.Condition

open ResourceLanguage.Text

/-! ### Tokens side by side -/

namespace Token

def text : Token → List Char
  | .word name => name.toList
  | .not => ['!']
  | .same => ['=', '=']
  | .differ => ['!', '=']
  | .both => ['&', '&']
  | .either => ['|', '|']
  | .opening => ['(']
  | .closing => [')']

/-- The tokens with which an operand can begin. -/
def begins : Token → Bool
  | .word _ | .not | .opening => true
  | _ => false

/-- The tokens with which an operand can end. -/
def ends : Token → Bool
  | .word _ | .closing => true
  | _ => false

/-- Tokens that do not run together when nothing stands between them. -/
def Apart : Token → Token → Prop
  | .word _, .word _ => False
  | .not, .same => False
  | _, _ => True

theorem apart_of_ends {t op : Token} (ht : t.ends = true) (hop : op.begins = false) :
    t.Apart op := by
  cases t <;> cases op <;> simp_all [Apart, ends, begins]

theorem apart_of_begins {op t : Token} (hop : op.ends = false) (ht : t.begins = true) :
    op.Apart t := by
  cases op <;> cases t <;> simp_all [Apart, ends, begins]

end Token

/-- Tokens of an operand: they stay apart, and they begin and end as operands do. -/
structure IsOperand (ts : List Token) : Prop where
  apart : ts.IsChain Token.Apart
  begins : ∃ first ∈ ts.head?, first.begins = true
  ends : ∃ last ∈ ts.getLast?, last.ends = true

namespace IsOperand

theorem word (name : String) : IsOperand [.word name] :=
  ⟨.singleton _, ⟨_, rfl, rfl⟩, ⟨_, rfl, rfl⟩⟩

theorem head_begins {ts : List Token} (h : IsOperand ts) {first : Token}
    (hfirst : first ∈ ts.head?) : first.begins = true := by
  obtain ⟨found, hfound, hbegins⟩ := h.begins
  rwa [Option.mem_unique hfirst hfound]

theorem getLast_ends {ts : List Token} (h : IsOperand ts) {last : Token}
    (hlast : last ∈ ts.getLast?) : last.ends = true := by
  obtain ⟨found, hfound, hends⟩ := h.ends
  rwa [Option.mem_unique hlast hfound]

theorem not {ts : List Token} (h : IsOperand ts) : IsOperand (.not :: ts) where
  apart := List.isChain_cons.mpr
    ⟨fun _ hfirst => Token.apart_of_begins rfl (h.head_begins hfirst), h.apart⟩
  begins := ⟨_, rfl, rfl⟩
  ends := by
    obtain ⟨last, hlast, hends⟩ := h.ends
    exact ⟨last, by rw [List.getLast?_cons, hlast]; rfl, hends⟩

theorem parentheses {ts : List Token} (h : IsOperand ts) :
    IsOperand (.opening :: (ts ++ [.closing])) where
  apart := by
    refine List.isChain_cons.mpr ⟨fun first _ => by cases first <;> trivial, ?_⟩
    refine List.isChain_append.mpr ⟨h.apart, .singleton _, fun last hlast op hop => ?_⟩
    obtain rfl : op = .closing := by simpa using hop.symm
    exact Token.apart_of_ends (h.getLast_ends hlast) rfl
  begins := ⟨_, rfl, rfl⟩
  ends := ⟨.closing, by simp [List.getLast?_cons], rfl⟩

/-- Operands joined by an operator. -/
theorem join {ls rs : List Token} (hleft : IsOperand ls) (hright : IsOperand rs) {op : Token}
    (hbegins : op.begins = false) (hends : op.ends = false) : IsOperand (ls ++ op :: rs) where
  apart := by
    refine List.isChain_append.mpr ⟨hleft.apart, List.isChain_cons.mpr ⟨?_, hright.apart⟩, ?_⟩
    · intro first hfirst
      exact Token.apart_of_begins hends (hright.head_begins hfirst)
    · intro last hlast found hfound
      obtain rfl : found = op := by simpa using hfound.symm
      exact Token.apart_of_ends (hleft.getLast_ends hlast) hbegins
  begins := by
    obtain ⟨first, hfirst, h⟩ := hleft.begins
    exact ⟨first, by rw [List.head?_append, hfirst]; rfl, h⟩
  ends := by
    obtain ⟨last, hlast, h⟩ := hright.ends
    refine ⟨last, ?_, h⟩
    rw [List.getLast?_append, List.getLast?_cons, hlast]
    rfl

end IsOperand

theorem Spells.isOperand {level : Level} {c : Condition} {ts : List Token}
    (h : Spells level c ts) : IsOperand ts := by
  induction h with
  | literalTrue => exact .word _
  | literalFalse => exact .word _
  | symbol => exact .word _
  | not _ ih => exact ih.not
  | parentheses _ ih => exact ih.parentheses
  | unary _ ih => exact ih
  | same _ _ ihleft ihright => exact ihleft.join ihright rfl rfl
  | differ _ _ ihleft ihright => exact ihleft.join ihright rfl rfl
  | equality _ ih => exact ih
  | both _ _ ihleft ihright => exact ihleft.join ihright rfl rfl
  | conjunction _ ih => exact ih
  | either _ _ ihleft ihright => exact ihleft.join ihright rfl rfl

/-! ### Texts -/

def IsWord (name : String) : Prop := name.toList ≠ [] ∧ ∀ c ∈ name.toList, isWordChar c = true

-- Decided along the word: the characters are a finite type, and to go through all of them is not
-- feasible.
instance (name : String) : Decidable (IsWord name) :=
  decidable_of_iff (name.toList ≠ [] ∧ name.toList.all isWordChar = true)
    (and_congr_right' List.all_eq_true)

def Token.Writable : Token → Prop
  | .word name => IsWord name
  | _ => True

/-- The texts that write some tokens, with white space or nothing around each of them. -/
inductive Writes : List Token → List Char → Prop where
  | nil {blanks : List Char} (hblanks : ∀ c ∈ blanks, isBlank c = true) : Writes [] blanks
  | cons {blanks : List Char} (hblanks : ∀ c ∈ blanks, isBlank c = true) {t : Token}
      (ht : t.Writable) {ts : List Token} {cs : List Char} (h : Writes ts cs) :
      Writes (t :: ts) (blanks ++ (t.text ++ cs))

theorem Writes.head_writable {ts : List Token} {cs : List Char} (h : Writes ts cs) {t : Token}
    (ht : t ∈ ts.head?) : t.Writable := by
  cases h with
  | nil => cases ht
  | cons _ hfirst _ =>
      cases ht
      exact hfirst

theorem isWordChar_of_isBlank {c : Char} (h : isBlank c = true) : isWordChar c = false := by
  -- There are few blanks, so they can be looked up one by one.
  have hcode : c.toNat ∈
      blankTable.flatMap fun range => List.range' range.1 (range.2 + 1 - range.1) := by
    obtain ⟨range, hrange, hc⟩ := List.any_eq_true.mp h
    simp only [Bool.and_eq_true, decide_eq_true_eq] at hc
    exact List.mem_flatMap.mpr ⟨range, hrange, List.mem_range'_1.mpr (by omega)⟩
  have hall : ∀ code ∈
      blankTable.flatMap fun range => List.range' range.1 (range.2 + 1 - range.1),
      isWordChar (Char.ofNat code) = false := by decide +kernel
  rw [← Char.ofNat_toNat c]
  exact hall _ hcode

/-- The characters of operators and parentheses. -/
def marks : List Char := ['(', ')', '!', '=', '&', '|']

theorem notMem_marks {c : Char} {p : Char → Bool} (hp : ∀ mark ∈ marks, p mark = false)
    (hc : p c = true) : c ∉ marks := by
  intro hmem
  rw [hp c hmem] at hc
  exact Bool.noConfusion hc

theorem isWordChar_marks : ∀ mark ∈ marks, isWordChar mark = false := by
  have hmarks : (marks.map isWordChar).all (!·) = true := by decide +kernel
  simpa using hmarks

theorem isBlank_marks : ∀ mark ∈ marks, isBlank mark = false := by
  have hmarks : (marks.map isBlank).all (!·) = true := by decide +kernel
  simpa using hmarks

theorem tokens_cons {c : Char} (h : c ∉ marks) (cs : List Char) :
    tokens (c :: cs) =
      if isBlank c then tokens cs
      else if isWordChar c then
        .word (String.ofList (c :: cs.takeWhile isWordChar)) :: tokens (cs.dropWhile isWordChar)
      else .closing :: tokens cs := by
  simp only [marks, List.mem_cons, List.not_mem_nil, or_false, not_or] at h
  rw [tokens] <;> simp_all

theorem tokens_blanks_append {blanks : List Char} (h : ∀ c ∈ blanks, isBlank c = true)
    (cs : List Char) : tokens (blanks ++ cs) = tokens cs := by
  induction blanks with
  | nil => rfl
  | cons c blanks ih =>
      obtain ⟨hc, hblanks⟩ := List.forall_mem_cons.mp h
      rw [List.cons_append, tokens_cons (notMem_marks isBlank_marks hc), if_pos hc, ih hblanks]

/-- A word ends where no character of words follows. -/
theorem tokens_word_append {name : String} (hname : IsWord name) {cs : List Char}
    (hcs : ∀ c ∈ cs.head?, isWordChar c = false) :
    tokens (name.toList ++ cs) = .word name :: tokens cs := by
  obtain ⟨hne, hall⟩ := hname
  cases hlist : name.toList with
  | nil => exact absurd hlist hne
  | cons c rest =>
      rw [hlist] at hall
      obtain ⟨hc, hrest⟩ := List.forall_mem_cons.mp hall
      have hblank : isBlank c = false := by
        by_contra hblank
        rw [isWordChar_of_isBlank (Bool.not_eq_false _ ▸ hblank)] at hc
        exact Bool.noConfusion hc
      have hstop : cs.takeWhile isWordChar = [] ∧ cs.dropWhile isWordChar = cs := by
        cases cs with
        | nil => exact ⟨rfl, rfl⟩
        | cons d cs => simp [hcs d rfl]
      rw [List.cons_append, tokens_cons (notMem_marks isWordChar_marks hc),
        if_neg (by simp [hblank]), if_pos hc, List.takeWhile_append_of_pos hrest,
        List.dropWhile_append_of_pos hrest, hstop.1, hstop.2, List.append_nil, ← hlist,
        String.ofList_toList]

theorem tokens_word {name : String} (hname : IsWord name) : tokens name.toList = [.word name] := by
  have hword := tokens_word_append hname (by simp : ∀ c ∈ [].head?, _)
  rwa [List.append_nil, tokens] at hword

theorem Token.Writable.text_ne_nil {t : Token} (h : t.Writable) : t.text ≠ [] := by
  cases t with
  | word name => exact h.1
  | _ => exact List.cons_ne_nil _ _

/-- A text begins with a blank or with the text of its first token. -/
theorem Writes.isBlank_or_head {ts : List Token} {cs : List Char} (h : Writes ts cs) {c : Char}
    (hc : c ∈ cs.head?) : isBlank c = true ∨ ∃ t ∈ ts.head?, c ∈ t.text.head? := by
  cases h with
  | nil hblanks => exact .inl (hblanks c (List.mem_of_mem_head? hc))
  | @cons blanks hblanks t ht ts cs h =>
      cases blanks with
      | cons blank blanks =>
          obtain rfl : blank = c := by simpa using hc
          exact .inl (hblanks blank List.mem_cons_self)
      | nil =>
          rw [List.nil_append, List.head?_append_of_ne_nil _ ht.text_ne_nil] at hc
          exact .inr ⟨t, rfl, hc⟩

/-- What follows a token in a text does not run together with it. -/
theorem tokens_text_append {t : Token} (ht : t.Writable) {ts : List Token} {cs : List Char}
    (h : Writes ts cs) (hapart : ∀ next ∈ ts.head?, t.Apart next) :
    tokens (t.text ++ cs) = t :: tokens cs := by
  cases t with
  | word name =>
      apply tokens_word_append ht
      intro c hc
      rcases h.isBlank_or_head hc with hblank | ⟨next, hnext, hhead⟩
      · exact isWordChar_of_isBlank hblank
      · -- Another word would not be apart, and all other tokens begin with a mark.
        apply isWordChar_marks
        have := hapart next hnext
        cases next <;> simp_all [Token.Apart, Token.text, marks, eq_comm]
  | not =>
      have hcs : ∀ rest, cs ≠ '=' :: rest := by
        rintro rest rfl
        rcases h.isBlank_or_head rfl with hblank | ⟨next, hnext, hhead⟩
        · cases hblank
        · have hnot := hapart next hnext
          cases next with
          | word name =>
              have hchar := (h.head_writable hnext).2 _ (List.mem_of_mem_head? hhead)
              exact absurd hchar (by decide)
          | _ => simp_all [Token.Apart, Token.text]
      rw [Token.text, List.singleton_append, tokens]
      exact hcs
  | _ =>
      simp only [Token.text, List.cons_append, List.nil_append]
      rw [tokens]

theorem tokens_of_writes {ts : List Token} {cs : List Char} (h : Writes ts cs)
    (hapart : ts.IsChain Token.Apart) : tokens cs = ts := by
  induction h with
  | @nil blanks hblanks =>
      have htokens := tokens_blanks_append hblanks []
      rwa [List.append_nil, tokens] at htokens
  | cons hblanks ht h ih =>
      obtain ⟨hnext, hchain⟩ := List.isChain_cons.mp hapart
      rw [tokens_blanks_append hblanks, tokens_text_append ht h hnext, ih hchain]

/-! ### Conditions -/

/-- A condition whose symbols can be written, and are not read as something else. -/
def WellNamed (c : Condition) : Prop :=
  ∀ name ∈ c.symbols, IsWord name ∧ name ≠ "true" ∧ name ≠ "false"

instance (c : Condition) : Decidable c.WellNamed :=
  inferInstanceAs (Decidable (∀ name ∈ c.symbols, _))

/-- Parentheses where the operators inside do not bind tightly enough. -/
def enclose (level outer : Level) (ts : List Token) : List Token :=
  if level.rank ≤ outer.rank then ts else .opening :: (ts ++ [.closing])

/-- The tokens of a condition, with parentheses only where the level requires them. -/
def spelling : Condition → Level → List Token
  | .literal value, _ => [.word (if value then "true" else "false")]
  | .symbol name, _ => [.word name]
  | .not operand, _ => .not :: operand.spelling .unary
  | .same left right, level =>
      enclose .equality level (left.spelling .equality ++ .same :: right.spelling .unary)
  | .differ left right, level =>
      enclose .equality level (left.spelling .equality ++ .differ :: right.spelling .unary)
  | .both left right, level =>
      enclose .both level (left.spelling .both ++ .both :: right.spelling .both)
  | .either left right, level =>
      enclose .either level (left.spelling .either ++ .either :: right.spelling .either)

theorem Spells.mono {level outer : Level} (hle : level.rank ≤ outer.rank) {c : Condition}
    {ts : List Token} (h : Spells level c ts) : Spells outer c ts := by
  by_cases heq : level = outer
  · exact heq ▸ h
  · have hlt : level.rank ≤ outer.operand.rank ∧ outer ≠ .unary := by
      cases level <;> cases outer <;> simp_all [Level.rank, Level.operand]
    exact .of_operand (h.mono hlt.1)
termination_by outer.rank
decreasing_by exact Level.rank_operand_lt hlt.2

theorem Spells.enclose {level outer : Level} {c : Condition} {ts : List Token}
    (h : Spells level c ts) : Spells outer c (enclose level outer ts) := by
  rw [Condition.enclose]
  split
  · rename_i hle
    exact h.mono hle
  · have hwhole : Spells .either c ts := h.mono (by cases level <;> decide)
    exact hwhole.parentheses.mono (Nat.zero_le _)

theorem WellNamed.operands {c left right : Condition} (h : c.WellNamed)
    (hc : c.symbols = left.symbols ++ right.symbols) : left.WellNamed ∧ right.WellNamed :=
  List.forall_mem_append.mp (hc ▸ h)

theorem spells_spelling {c : Condition} (h : c.WellNamed) (level : Level) :
    Spells level c (c.spelling level) := by
  induction c generalizing level with
  | literal value =>
      cases value with
      | false => exact Spells.literalFalse.mono (Nat.zero_le _)
      | true => exact Spells.literalTrue.mono (Nat.zero_le _)
  | symbol name =>
      obtain ⟨-, htrue, hfalse⟩ := h name List.mem_cons_self
      exact (Spells.symbol htrue hfalse).mono (Nat.zero_le _)
  | not operand ih => exact (ih h .unary).not.mono (Nat.zero_le _)
  | same left right ihleft ihright =>
      obtain ⟨hleft, hright⟩ := h.operands rfl
      exact ((ihleft hleft .equality).same (ihright hright .unary)).enclose
  | differ left right ihleft ihright =>
      obtain ⟨hleft, hright⟩ := h.operands rfl
      exact ((ihleft hleft .equality).differ (ihright hright .unary)).enclose
  | both left right ihleft ihright =>
      obtain ⟨hleft, hright⟩ := h.operands rfl
      exact ((ihleft hleft .both).both (ihright hright .both)).enclose
  | either left right ihleft ihright =>
      obtain ⟨hleft, hright⟩ := h.operands rfl
      exact ((ihleft hleft .either).either (ihright hright .either)).enclose

theorem enclose_writable {level outer : Level} {ts : List Token} (h : ∀ t ∈ ts, t.Writable) :
    ∀ t ∈ enclose level outer ts, t.Writable := by
  rw [enclose]
  split
  · exact h
  · intro t ht
    rcases List.mem_cons.mp ht with rfl | ht
    · trivial
    · rcases List.mem_append.mp ht with ht | ht
      · exact h t ht
      · obtain rfl := List.mem_singleton.mp ht
        trivial

theorem join_writable {ls rs : List Token} (hls : ∀ t ∈ ls, t.Writable)
    (hrs : ∀ t ∈ rs, t.Writable) {op : Token} (hop : op.Writable) :
    ∀ t ∈ ls ++ op :: rs, t.Writable :=
  List.forall_mem_append.mpr ⟨hls, List.forall_mem_cons.mpr ⟨hop, hrs⟩⟩

theorem spelling_writable {c : Condition} (h : c.WellNamed) (level : Level) :
    ∀ t ∈ c.spelling level, t.Writable := by
  induction c generalizing level with
  | literal value =>
      intro t ht
      obtain rfl := List.mem_singleton.mp ht
      have hwords : IsWord "false" ∧ IsWord "true" := by decide +kernel
      cases value with
      | false => exact hwords.1
      | true => exact hwords.2
  | symbol name =>
      intro t ht
      obtain rfl := List.mem_singleton.mp ht
      exact (h name List.mem_cons_self).1
  | not operand ih => exact List.forall_mem_cons.mpr ⟨trivial, ih h .unary⟩
  | same left right ihleft ihright =>
      obtain ⟨hleft, hright⟩ := h.operands rfl
      exact enclose_writable (join_writable (ihleft hleft _) (ihright hright _) trivial)
  | differ left right ihleft ihright =>
      obtain ⟨hleft, hright⟩ := h.operands rfl
      exact enclose_writable (join_writable (ihleft hleft _) (ihright hright _) trivial)
  | both left right ihleft ihright =>
      obtain ⟨hleft, hright⟩ := h.operands rfl
      exact enclose_writable (join_writable (ihleft hleft _) (ihright hright _) trivial)
  | either left right ihleft ihright =>
      obtain ⟨hleft, hright⟩ := h.operands rfl
      exact enclose_writable (join_writable (ihleft hleft _) (ihright hright _) trivial)

theorem writes_flatMap_text {ts : List Token} (h : ∀ t ∈ ts, t.Writable) :
    Writes ts (ts.flatMap Token.text) := by
  induction ts with
  | nil => exact .nil (by simp)
  | cons t ts ih =>
      obtain ⟨ht, hts⟩ := List.forall_mem_cons.mp h
      exact @Writes.cons [] (by simp) t ht ts _ (ih hts)

theorem holds_of_spells {text : List Char} {c : Condition} (h : Spells .either c (tokens text))
    (symbols : Symbols) : holds text symbols = c.eval symbols := by
  obtain ⟨c', hread, hagrees⟩ := ofTokens?_of_spells h
  rw [holds, hread]
  exact hagrees symbols

/-- A symbol on its own holds where it is defined. -/
theorem holds_symbol {name : String} (h : (Condition.symbol name).WellNamed) (symbols : Symbols) :
    holds name.toList symbols = symbols.contains name := by
  have hspells : Spells .either (.symbol name) [.word name] := spells_spelling h .either
  have htokens := tokens_word (h name List.mem_cons_self).1
  rw [holds_of_spells (htokens ▸ hspells), eval]

theorem holds_of_not_spells {text : List Char} (h : ¬∃ c, Spells .either c (tokens text))
    (symbols : Symbols) : holds text symbols = false := by
  cases hread : ofTokens? (tokens text) with
  | none => rw [holds, hread]
  | some c => exact absurd ⟨c, spells_of_ofTokens? hread⟩ h

/-- A text holds according to the grammar: it has the value of every condition that it writes, and
every condition can be written. The readers accept exactly the tokens in the grammar, with the
value that the grammar gives them, and all other texts are false. -/
theorem holds_eq_value_in_grammar (symbols : Symbols) :
    (∀ c ts text, Spells .either c ts → Writes ts text → holds text symbols = c.eval symbols) ∧
    (∀ c, c.WellNamed → Spells .either c (c.spelling .either) ∧
      Writes (c.spelling .either) ((c.spelling .either).flatMap Token.text)) ∧
    (∀ ts value, (∃ c, ofTokens? ts = some c ∧ c.eval symbols = value) ↔
      ∃ c, Spells .either c ts ∧ c.eval symbols = value) ∧
    (∀ text, (¬∃ c, Spells .either c (tokens text)) → holds text symbols = false) := by
  refine ⟨?_, ?_, ?_, fun text h => holds_of_not_spells h symbols⟩
  · intro c ts text hspells hwrites
    apply holds_of_spells
    rwa [tokens_of_writes hwrites hspells.isOperand.apart]
  · intro c hnames
    exact ⟨spells_spelling hnames .either, writes_flatMap_text (spelling_writable hnames .either)⟩
  · intro ts value
    constructor
    · rintro ⟨c, hread, hvalue⟩
      exact ⟨c, spells_of_ofTokens? hread, hvalue⟩
    · rintro ⟨c, hspells, hvalue⟩
      obtain ⟨c', hread, hagrees⟩ := ofTokens?_of_spells hspells
      exact ⟨c', hread, (hagrees symbols).trans hvalue⟩

theorem holds_negated_choice :
    (Condition.both (.symbol "A")
      (.differ (.not (.either (.symbol "B") (.literal false))) (.literal false))).WellNamed ∧
    holds "A&&!(B||false)!=false".toList ["A"] = true := by
  have hnames : (Condition.both (.symbol "A")
      (.differ (.not (.either (.symbol "B") (.literal false))) (.literal false))).WellNamed := by
    decide +kernel
  obtain ⟨hvalue, hprinted, -, -⟩ := holds_eq_value_in_grammar ["A"]
  obtain ⟨hspells, hwrites⟩ := hprinted _ hnames
  refine ⟨hnames, ?_⟩
  exact hvalue _ _ _ hspells hwrites

end ResourceLanguage.Condition
