import Mathlib.Tactic.Common
import ResourceLanguage.Condition.Parser

/-!
The grammar of conditions. `||` binds least, then `&&`, then `==` and `!=`, then `!`; `==` and `!=`
group from the left. For `||` and `&&` the grammar leaves the grouping open, since it makes no
difference to the value.

The readers accept exactly what the grammar derives. A reader may group `a || b || c` in another
way than a derivation does, so what is compared is the value of a condition and not its tree.
-/

namespace ResourceLanguage.Condition

/-- The symbols of a condition, as they occur from left to right. -/
def symbols : Condition → List String
  | .literal _ => []
  | .symbol name => [name]
  | .not operand => operand.symbols
  | .same left right | .differ left right | .both left right | .either left right =>
      left.symbols ++ right.symbols

/-- How tightly the operators outside all parentheses bind at least. -/
inductive Level where
  | either
  | both
  | equality
  | unary
  deriving DecidableEq, Repr

/-- The tokens that spell a condition at a level. -/
inductive Spells : Level → Condition → List Token → Prop where
  | literalTrue : Spells .unary (.literal true) [.word "true"]
  | literalFalse : Spells .unary (.literal false) [.word "false"]
  | symbol {name : String} (htrue : name ≠ "true") (hfalse : name ≠ "false") :
      Spells .unary (.symbol name) [.word name]
  | not {c : Condition} {ts : List Token} (h : Spells .unary c ts) :
      Spells .unary (.not c) (.not :: ts)
  | parentheses {c : Condition} {ts : List Token} (h : Spells .either c ts) :
      Spells .unary c (.opening :: (ts ++ [.closing]))
  | unary {c : Condition} {ts : List Token} (h : Spells .unary c ts) : Spells .equality c ts
  | same {left right : Condition} {ls rs : List Token} (hleft : Spells .equality left ls)
      (hright : Spells .unary right rs) :
      Spells .equality (.same left right) (ls ++ .same :: rs)
  | differ {left right : Condition} {ls rs : List Token} (hleft : Spells .equality left ls)
      (hright : Spells .unary right rs) :
      Spells .equality (.differ left right) (ls ++ .differ :: rs)
  | equality {c : Condition} {ts : List Token} (h : Spells .equality c ts) : Spells .both c ts
  | both {left right : Condition} {ls rs : List Token} (hleft : Spells .both left ls)
      (hright : Spells .both right rs) : Spells .both (.both left right) (ls ++ .both :: rs)
  | conjunction {c : Condition} {ts : List Token} (h : Spells .both c ts) : Spells .either c ts
  | either {left right : Condition} {ls rs : List Token} (hleft : Spells .either left ls)
      (hright : Spells .either right rs) :
      Spells .either (.either left right) (ls ++ .either :: rs)

namespace Level

/-- The level of the operands that the operators of a level join. -/
def operand : Level → Level
  | .either => .both
  | .both => .equality
  | .equality | .unary => .unary

/-- What an operator of a level does to its operands. -/
def operator? : Level → Token → Option (Condition → Condition → Condition)
  | .either, .either => some .either
  | .both, .both => some .both
  | .equality, .same => some .same
  | .equality, .differ => some .differ
  | _, _ => none

/-- The number of levels that bind tighter. -/
def rank : Level → Nat
  | .either => 3
  | .both => 2
  | .equality => 1
  | .unary => 0

theorem rank_operand_lt {level : Level} (h : level ≠ .unary) : level.operand.rank < level.rank := by
  cases level with
  | unary => exact absurd rfl h
  | _ => decide

end Level

theorem Spells.of_operand {level : Level} {c : Condition} {ts : List Token}
    (h : Spells level.operand c ts) : Spells level c ts := by
  cases level with
  | either => exact .conjunction h
  | both => exact .equality h
  | equality => exact .unary h
  | unary => exact h

theorem Spells.join {level : Level} {op : Token} {f : Condition → Condition → Condition}
    (hop : level.operator? op = some f) {left right : Condition} {ls rs : List Token}
    (hleft : Spells level left ls) (hright : Spells level.operand right rs) :
    Spells level (f left right) (ls ++ op :: rs) := by
  cases level <;> cases op <;> simp only [Level.operator?, reduceCtorEq, Option.some_inj] at hop <;>
    subst hop
  · exact .either hleft (.conjunction hright)
  · exact .both hleft (.equality hright)
  · exact .same hleft hright
  · exact .differ hleft hright

/-! ### The readers without their bounds -/

/-- What a reader found, and the tokens that it left over. -/
def Read.plain {ts : List Token} (read : Read ts) : Option (Condition × List Token) :=
  read.map fun found => (found.1, found.2.1)

def ReadTail.plain {ts : List Token} (read : ReadTail ts) : Option (Condition × List Token) :=
  read.map fun found => (found.1, found.2.1)

namespace Level

def read : Level → List Token → Option (Condition × List Token)
  | .either, ts => (readEither ts).plain
  | .both, ts => (readBoth ts).plain
  | .equality, ts => (readEquality ts).plain
  | .unary, ts => (readUnary ts).plain

/-- The reader that goes on after a first operand. -/
def readTail : Level → Condition → List Token → Option (Condition × List Token)
  | .either, left, ts => (readEitherTail left ts).plain
  | .both, left, ts => (readBothTail left ts).plain
  | .equality, left, ts => (readEqualityTail left ts).plain
  | .unary, left, ts => some (left, ts)

theorem length_lt_of_read {level : Level} {ts rest : List Token} {c : Condition}
    (h : level.read ts = some (c, rest)) : rest.length < ts.length := by
  cases level
  all_goals
    obtain ⟨⟨found, bounded⟩, _, heq⟩ := Option.map_eq_some_iff.mp h
    obtain ⟨rfl, rfl⟩ := Prod.mk.inj heq
    exact bounded.2

/-- A condition at a level is an operand and what goes on after it. -/
theorem read_eq {level : Level} (hlevel : level ≠ .unary) (ts : List Token) :
    level.read ts = (level.operand.read ts).bind fun found => level.readTail found.1 found.2 := by
  cases level with
  | either =>
      simp only [read, readTail, operand]
      rw [readEither]
      rcases readBoth ts with _ | ⟨left, rest⟩
      · rfl
      · simp only [Read.plain, ReadTail.plain, Option.map_some, Option.bind_some]
        cases readEitherTail left rest.1 <;> rfl
  | both =>
      simp only [read, readTail, operand]
      rw [readBoth]
      rcases readEquality ts with _ | ⟨left, rest⟩
      · rfl
      · simp only [Read.plain, ReadTail.plain, Option.map_some, Option.bind_some]
        cases readBothTail left rest.1 <;> rfl
  | equality =>
      simp only [read, readTail, operand]
      rw [readEquality]
      rcases readUnary ts with _ | ⟨left, rest⟩
      · rfl
      · simp only [Read.plain, ReadTail.plain, Option.map_some, Option.bind_some]
        cases readEqualityTail left rest.1 <;> rfl
  | unary => exact absurd rfl hlevel

/-- An operator of the level is followed by an operand, and the reader goes on with both joined. -/
theorem readTail_cons {level : Level} {op : Token} {f : Condition → Condition → Condition}
    (hop : level.operator? op = some f) (left : Condition) (ts : List Token) :
    level.readTail left (op :: ts) =
      (level.operand.read ts).bind fun found => level.readTail (f left found.1) found.2 := by
  cases level <;> cases op <;> simp only [operator?, reduceCtorEq, Option.some_inj] at hop <;>
    subst hop <;> simp only [readTail, operand, read]
  · rw [readEitherTail]
    rcases readBoth ts with _ | ⟨right, rest⟩
    · rfl
    · simp only [Read.plain, ReadTail.plain, Option.map_some, Option.bind_some]
      cases readEitherTail (.either left right) rest.1 <;> rfl
  · rw [readBothTail]
    rcases readEquality ts with _ | ⟨right, rest⟩
    · rfl
    · simp only [Read.plain, ReadTail.plain, Option.map_some, Option.bind_some]
      cases readBothTail (.both left right) rest.1 <;> rfl
  · rw [readEqualityTail]
    rcases readUnary ts with _ | ⟨right, rest⟩
    · rfl
    · simp only [Read.plain, ReadTail.plain, Option.map_some, Option.bind_some]
      cases readEqualityTail (.same left right) rest.1 <;> rfl
  · rw [readEqualityTail]
    rcases readUnary ts with _ | ⟨right, rest⟩
    · rfl
    · simp only [Read.plain, ReadTail.plain, Option.map_some, Option.bind_some]
      cases readEqualityTail (.differ left right) rest.1 <;> rfl

/-- Any other token ends the condition. -/
theorem readTail_of_stop {level : Level} {ts : List Token}
    (h : ∀ op ∈ ts.head?, level.operator? op = none) (left : Condition) :
    level.readTail left ts = some (left, ts) := by
  cases level with
  | either =>
      rw [readTail, readEitherTail]
      · rfl
      · rintro rest rfl
        exact absurd (h _ rfl) (Option.some_ne_none _)
  | both =>
      rw [readTail, readBothTail]
      · rfl
      · rintro rest rfl
        exact absurd (h _ rfl) (Option.some_ne_none _)
  | equality =>
      rw [readTail, readEqualityTail]
      · rfl
      · rintro rest rfl
        exact absurd (h _ rfl) (Option.some_ne_none _)
      · rintro rest rfl
        exact absurd (h _ rfl) (Option.some_ne_none _)
  | unary => rfl

theorem read_unary_word (name : String) (ts : List Token) :
    read .unary (.word name :: ts) = some (ofWord name, ts) := by
  rw [read, readUnary]
  rfl

theorem read_unary_not (ts : List Token) :
    read .unary (.not :: ts) =
      (read .unary ts).map fun found => (Condition.not found.1, found.2) := by
  rw [read, read, readUnary]
  cases readUnary ts <;> rfl

theorem read_unary_opening (ts : List Token) :
    read .unary (.opening :: ts) =
      (read .either ts).bind fun found =>
        match found.2 with
        | .closing :: rest => some (found.1, rest)
        | _ => none := by
  rw [read, read, readUnary]
  rcases readEither ts with _ | ⟨inner, rest, hrest⟩
  · rfl
  · rcases rest with _ | ⟨first, rest⟩
    · rfl
    · cases first <;> rfl

end Level

/-! ### What is read is in the grammar -/

theorem spells_ofWord (name : String) : Spells .unary (ofWord name) [.word name] := by
  rw [ofWord]
  split
  · rename_i htrue
    rw [htrue]
    exact .literalTrue
  · split
    · rename_i hfalse
      rw [hfalse]
      exact .literalFalse
    · rename_i htrue hfalse
      exact .symbol htrue hfalse

/-- What begins a condition without operators between operands. -/
theorem read_unary_cases {ts rest : List Token} {c : Condition}
    (h : Level.read .unary ts = some (c, rest)) :
    (∃ name, ts = .word name :: rest ∧ c = ofWord name) ∨
    (∃ inner us, ts = .not :: us ∧ Level.read .unary us = some (inner, rest) ∧ c = .not inner) ∨
    ∃ us, ts = .opening :: us ∧ Level.read .either us = some (c, .closing :: rest) := by
  rcases ts with _ | ⟨first, us⟩
  · rw [Level.read, readUnary] at h
    · cases h
    all_goals simp
  · cases first with
    | word name =>
        rw [Level.read_unary_word] at h
        cases h
        exact .inl ⟨name, rfl, rfl⟩
    | not =>
        rw [Level.read_unary_not, Option.map_eq_some_iff] at h
        obtain ⟨⟨inner, left⟩, hread, heq⟩ := h
        cases heq
        exact .inr (.inl ⟨inner, us, rfl, hread, rfl⟩)
    | opening =>
        rw [Level.read_unary_opening, Option.bind_eq_some_iff] at h
        obtain ⟨⟨inner, left⟩, hread, hclose⟩ := h
        dsimp only at hclose
        split at hclose
        · cases hclose
          exact .inr (.inr ⟨us, rfl, hread⟩)
        · cases hclose
    | _ =>
        rw [Level.read, readUnary] at h
        · cases h
        all_goals simp

mutual

/-- A reader takes the spelling of what it returns from the front of the tokens. -/
theorem spells_of_read (level : Level) (ts : List Token) {c : Condition} {rest : List Token}
    (h : level.read ts = some (c, rest)) : ∃ us, ts = us ++ rest ∧ Spells level c us := by
  by_cases hlevel : level = .unary
  · rw [hlevel] at h ⊢
    rcases read_unary_cases h with ⟨name, hts, hc⟩ | ⟨inner, us, hts, hread, hc⟩ | ⟨us, hts, hread⟩
    · exact ⟨[.word name], hts, hc ▸ spells_ofWord name⟩
    · obtain ⟨vs, hvs, hspells⟩ := spells_of_read .unary us hread
      exact ⟨.not :: vs, by rw [hts, hvs, List.cons_append], hc ▸ .not hspells⟩
    · obtain ⟨vs, hvs, hspells⟩ := spells_of_read .either us hread
      exact ⟨.opening :: (vs ++ [.closing]), by simp [hts, hvs], .parentheses hspells⟩
  · rw [Level.read_eq hlevel, Option.bind_eq_some_iff] at h
    obtain ⟨⟨left, middle⟩, hleft, htail⟩ := h
    have hshorter := Level.length_lt_of_read hleft
    obtain ⟨us, hus, hspells⟩ := spells_of_read level.operand ts hleft
    obtain ⟨vs, hvs, hjoined⟩ := spells_of_readTail level left middle htail
    exact ⟨us ++ vs, by rw [hus, hvs, List.append_assoc], hjoined us (.of_operand hspells)⟩
termination_by (ts.length, level.rank + 1)
decreasing_by
  · exact .left _ _ (by rw [hts]; exact Nat.lt_succ_self _)
  · exact .left _ _ (by rw [hts]; exact Nat.lt_succ_self _)
  · exact .right _ (Nat.succ_lt_succ (Level.rank_operand_lt hlevel))
  · exact .left _ _ hshorter

theorem spells_of_readTail (level : Level) (left : Condition) (ts : List Token) {c : Condition}
    {rest : List Token} (h : level.readTail left ts = some (c, rest)) :
    ∃ us, ts = us ++ rest ∧ ∀ ls, Spells level left ls → Spells level c (ls ++ us) := by
  by_cases hstop : ∀ op ∈ ts.head?, level.operator? op = none
  · rw [Level.readTail_of_stop hstop] at h
    cases h
    exact ⟨[], rfl, fun ls hls => by rwa [List.append_nil]⟩
  · simp only [not_forall, Option.mem_def] at hstop
    obtain ⟨op, hhead, hop⟩ := hstop
    obtain ⟨us, hts⟩ := List.head?_eq_some_iff.mp hhead
    obtain ⟨f, hf⟩ := Option.ne_none_iff_exists'.mp hop
    rw [hts, Level.readTail_cons hf, Option.bind_eq_some_iff] at h
    obtain ⟨⟨right, middle⟩, hright, htail⟩ := h
    have hshorter := Level.length_lt_of_read hright
    obtain ⟨vs, hvs, hspells⟩ := spells_of_read level.operand us hright
    obtain ⟨ws, hws, hjoined⟩ := spells_of_readTail level (f left right) middle htail
    refine ⟨op :: (vs ++ ws), by simp [hts, hvs, hws], fun ls hls => ?_⟩
    simpa using hjoined _ (hls.join hf hspells)
termination_by (ts.length, 0)
decreasing_by
  · exact .left _ _ (by rw [hts]; exact Nat.lt_succ_self _)
  · exact .left _ _ (by rw [hts]; exact Nat.lt_succ_of_lt hshorter)

end

/-! ### What is in the grammar is read -/

/-- Conditions with the same value under all symbols. -/
def Agrees (c c' : Condition) : Prop := ∀ symbols, c.eval symbols = c'.eval symbols

theorem Agrees.join {level : Level} {op : Token} {f : Condition → Condition → Condition}
    (hop : level.operator? op = some f) {left left' right right' : Condition}
    (hleft : left.Agrees left') (hright : right.Agrees right') :
    (f left right).Agrees (f left' right') := by
  intro symbols
  cases level <;> cases op <;> simp only [Level.operator?, reduceCtorEq, Option.some_inj] at hop <;>
    subst hop <;> simp only [eval, hleft symbols, hright symbols]

/-- `||` and `&&` group in any way. -/
theorem Agrees.assoc {level : Level} (hlevel : level ≠ .equality) {op : Token}
    {f : Condition → Condition → Condition} (hop : level.operator? op = some f)
    (a b c : Condition) : (f (f a b) c).Agrees (f a (f b c)) := by
  intro symbols
  cases level <;> cases op <;> simp only [Level.operator?, reduceCtorEq, Option.some_inj] at hop <;>
    subst hop <;>
    simp only [eval, Bool.or_assoc, Bool.and_assoc, ne_eq, not_true_eq_false] at hlevel ⊢

/-- The tokens after a condition at a level begin with no operator that binds tighter. -/
def Level.Stops (level : Level) (rest : List Token) : Prop :=
  ∀ op ∈ rest.head?, ∀ inner : Level, inner.rank < level.rank → inner.operator? op = none

/-- Only `==` and `!=` share their level. -/
theorem Level.operator?_unique {level : Level} (hlevel : level ≠ .equality) {op op' : Token}
    {f f' : Condition → Condition → Condition} (hop : level.operator? op = some f)
    (hop' : level.operator? op' = some f') : op = op' ∧ f = f' := by
  cases level <;> cases op <;> simp only [Level.operator?, reduceCtorEq, Option.some_inj] at hop <;>
    cases op' <;> simp only [Level.operator?, reduceCtorEq, Option.some_inj] at hop' <;>
    first | exact ⟨rfl, hop.symm.trans hop'⟩ | exact absurd rfl hlevel

/-- An operator belongs to one level. -/
theorem Level.operator?_eq_none {level inner : Level} {op : Token}
    {f : Condition → Condition → Condition} (hop : level.operator? op = some f)
    (hne : inner ≠ level) : inner.operator? op = none := by
  cases level <;> cases op <;> simp only [Level.operator?, reduceCtorEq, Option.some_inj] at hop <;>
    cases inner <;> first | rfl | exact absurd rfl hne

theorem Level.stops_operator {level : Level} {op : Token} {f : Condition → Condition → Condition}
    (hop : level.operator? op = some f) (rest : List Token) : level.Stops (op :: rest) := by
  intro found hfound inner hinner
  obtain rfl : op = found := by simpa using hfound
  apply Level.operator?_eq_none hop
  rintro rfl
  exact Nat.lt_irrefl _ hinner

theorem Level.Stops.operand {level : Level} (hlevel : level ≠ .unary) {rest : List Token}
    (h : level.Stops rest) : level.operand.Stops rest :=
  fun op hop inner hinner => h op hop inner (Nat.lt_trans hinner (Level.rank_operand_lt hlevel))

/-- What stops a condition at a level is no operator between its operands' operands. -/
theorem Level.Stops.operator?_operand {level : Level} (hlevel : level ≠ .unary)
    {rest : List Token} (h : level.Stops rest) :
    ∀ op ∈ rest.head?, level.operand.operator? op = none :=
  fun op hop => h op hop level.operand (Level.rank_operand_lt hlevel)

/-- The readers find a condition in front of any tokens that stop it, and then go on at the same
level. Grouping is free at the levels of `||` and `&&`, so there the condition can also be what an
operator joins to a condition before it. -/
structure Reads (level : Level) (c : Condition) (ts : List Token) : Prop where
  first : ∀ rest, level.Stops rest → ∃ c', c'.Agrees c ∧
    level.read (ts ++ rest) = level.readTail c' rest
  joined : level ≠ .equality → ∀ op f, level.operator? op = some f →
    ∀ rest, level.Stops rest → ∀ left, ∃ c', c'.Agrees (f left c) ∧
      level.readTail left (op :: (ts ++ rest)) = level.readTail c' rest

namespace Reads

/-- At the level of `!` nothing can go on, so there is only the first half. -/
theorem ofUnary {c : Condition} {ts : List Token}
    (h : ∀ rest, ∃ c', c'.Agrees c ∧ Level.read .unary (ts ++ rest) = some (c', rest)) :
    Reads .unary c ts where
  first rest _ := h rest
  joined _ op f hop := by cases op <;> cases hop

theorem of_operand {level : Level} (hlevel : level ≠ .unary) {c : Condition} {ts : List Token}
    (h : Reads level.operand c ts) : Reads level c ts where
  first rest hstops := by
    obtain ⟨c', hc', hread⟩ := h.first rest (hstops.operand hlevel)
    rw [Level.readTail_of_stop (hstops.operator?_operand hlevel)] at hread
    exact ⟨c', hc', by rw [Level.read_eq hlevel, hread]; rfl⟩
  joined _ op f hop rest hstops left := by
    obtain ⟨c', hc', hread⟩ := h.first rest (hstops.operand hlevel)
    rw [Level.readTail_of_stop (hstops.operator?_operand hlevel)] at hread
    exact ⟨f left c', .join hop (fun _ => rfl) hc', by rw [Level.readTail_cons hop, hread]; rfl⟩

/-- Conditions at a level whose operators group in any way. -/
theorem join {level : Level} (hlevel : level ≠ .equality) {op : Token}
    {f : Condition → Condition → Condition} (hop : level.operator? op = some f)
    {left right : Condition} {ls rs : List Token} (hleft : Reads level left ls)
    (hright : Reads level right rs) : Reads level (f left right) (ls ++ op :: rs) where
  first rest hstops := by
    obtain ⟨l, hl, hread⟩ := hleft.first (op :: (rs ++ rest)) (Level.stops_operator hop _)
    obtain ⟨c', hc', hjoined⟩ := hright.joined hlevel op f hop rest hstops l
    refine ⟨c', fun symbols => ?_, ?_⟩
    · rw [hc' symbols, Agrees.join hop hl (fun _ => rfl) symbols]
    · rw [List.append_assoc, List.cons_append, hread, hjoined]
  joined _ op' f' hop' rest hstops outer := by
    obtain ⟨rfl, rfl⟩ := Level.operator?_unique hlevel hop hop'
    obtain ⟨l, hl, hread⟩ :=
      hleft.joined hlevel op f hop (op :: (rs ++ rest)) (Level.stops_operator hop _) outer
    obtain ⟨c', hc', hjoined⟩ := hright.joined hlevel op f hop rest hstops l
    refine ⟨c', fun symbols => ?_, ?_⟩
    · rw [hc' symbols, Agrees.join hop hl (fun _ => rfl) symbols,
        Agrees.assoc hlevel hop outer left right symbols]
    · rw [List.append_assoc, List.cons_append, hread, hjoined]

/-- `==` and `!=` join a condition at their level to one that begins with no operator. -/
theorem joinEquality {op : Token} {f : Condition → Condition → Condition}
    (hop : Level.operator? .equality op = some f) {left right : Condition} {ls rs : List Token}
    (hleft : Reads .equality left ls) (hright : Reads .unary right rs) :
    Reads .equality (f left right) (ls ++ op :: rs) where
  first rest hstops := by
    obtain ⟨l, hl, hread⟩ := hleft.first (op :: (rs ++ rest)) (Level.stops_operator hop _)
    obtain ⟨r, hr, hright⟩ := hright.first rest (hstops.operand (by decide))
    refine ⟨f l r, .join hop hl hr, ?_⟩
    rw [List.append_assoc, List.cons_append, hread, Level.readTail_cons hop, Level.operand, hright]
    rfl
  joined hlevel := absurd rfl hlevel

end Reads

theorem Spells.reads {level : Level} {c : Condition} {ts : List Token} (h : Spells level c ts) :
    Reads level c ts := by
  induction h with
  | literalTrue => exact .ofUnary fun rest => ⟨_, fun _ => rfl, Level.read_unary_word "true" rest⟩
  | literalFalse => exact .ofUnary fun rest => ⟨_, fun _ => rfl, Level.read_unary_word "false" rest⟩
  | @symbol name htrue hfalse =>
      refine .ofUnary fun rest => ⟨_, fun _ => ?_, Level.read_unary_word name rest⟩
      rw [ofWord, if_neg htrue, if_neg hfalse]
  | not h ih =>
      refine .ofUnary fun rest => ?_
      obtain ⟨c', hc', hread⟩ := ih.first rest (by rintro op - inner ⟨⟩)
      refine ⟨.not c', fun symbols => congrArg Bool.not (hc' symbols), ?_⟩
      rw [List.cons_append, Level.read_unary_not, hread]
      rfl
  | parentheses h ih =>
      refine .ofUnary fun rest => ?_
      obtain ⟨c', hc', hread⟩ := ih.first (.closing :: rest) (by
        intro op hop inner _
        obtain rfl : Token.closing = op := by simpa using hop
        cases inner <;> rfl)
      refine ⟨c', hc', ?_⟩
      rw [List.cons_append, List.append_assoc, List.singleton_append, Level.read_unary_opening,
        hread, Level.readTail_of_stop]
      · rfl
      · rintro op ⟨⟩
        rfl
  | unary h ih => exact .of_operand (by decide) ih
  | same hleft hright ihleft ihright => exact .joinEquality rfl ihleft ihright
  | differ hleft hright ihleft ihright => exact .joinEquality rfl ihleft ihright
  | equality h ih => exact .of_operand (by decide) ih
  | both hleft hright ihleft ihright => exact .join (by decide) rfl ihleft ihright
  | conjunction h ih => exact .of_operand (by decide) ih
  | either hleft hright ihleft ihright => exact .join (by decide) rfl ihleft ihright

/-! ### Whole lists of tokens -/

theorem ofTokens?_eq_some_iff {ts : List Token} {c : Condition} :
    ofTokens? ts = some c ↔ Level.read .either ts = some (c, []) := by
  rw [ofTokens?, Level.read]
  rcases readEither ts with _ | ⟨whole, rest, hrest⟩
  · simp [Read.plain]
  · cases rest with
    | nil => simp [Read.plain]
    | cons t rest => simp [Read.plain]

theorem spells_of_ofTokens? {ts : List Token} {c : Condition} (h : ofTokens? ts = some c) :
    Spells .either c ts := by
  obtain ⟨us, rfl, hspells⟩ := spells_of_read .either ts (ofTokens?_eq_some_iff.mp h)
  rwa [List.append_nil]

theorem ofTokens?_of_spells {ts : List Token} {c : Condition} (h : Spells .either c ts) :
    ∃ c', ofTokens? ts = some c' ∧ c'.Agrees c := by
  obtain ⟨c', hc', hread⟩ := h.reads.first [] (by simp [Level.Stops])
  rw [List.append_nil, Level.readTail_of_stop (by simp)] at hread
  exact ⟨c', ofTokens?_eq_some_iff.mpr hread, hc'⟩

end ResourceLanguage.Condition
