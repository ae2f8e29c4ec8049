import ResourceLanguage.CSharp.Parser
import ResourceLanguage.Proofs.Text.Position

/-!
The words of a text among its tokens. Tokens stand one after another in the text, none of them
begins with white space, and a name is a word.
-/

namespace ResourceLanguage.CSharp

open ResourceLanguage.Text

/-! ### Words among lexemes -/

def IsWordText (cs : List Char) : Prop := cs ≠ [] ∧ ∀ c ∈ cs, Lexeme.isWordChar c = true ∨ c = '@'

theorem IsWordText.notMem {word : List Char} (h : IsWordText word) {c : Char}
    (hc : Lexeme.isWordChar c = false) (hat : c ≠ '@') : c ∉ word := by
  intro hmem
  rcases h.2 c hmem with hword | heq
  · rw [hc] at hword
    cases hword
  · exact hat heq

namespace Lexeme

theorem isWordText_run {c : Char} (hc : isWordChar c = true ∨ c = '@') (cs : List Char) :
    IsWordText (c :: (Cut.run isWordChar cs).taken) := by
  refine ⟨List.cons_ne_nil _ _, List.forall_mem_cons.mpr ⟨hc, fun d hd => .inl ?_⟩⟩
  exact List.all_eq_true.mp List.all_takeWhile d hd

theorem scan_eq_word {c : Char} {cs : List Char} {cut : Cut cs} (h : scan c cs = (.word, cut)) :
    IsWordText (c :: cut.taken) := by
  unfold scan at h
  split at h
  · cases h
  · split at h
    · rename_i hc
      cases h
      exact isWordText_run (.inl hc) cs
    · split at h
      · cases h
      · cases h
      · cases h
      · split at h <;> cases h
      · split at h
        · cases h
        · cases h
        · cases h
          exact isWordText_run (.inr rfl) cs
      · split at h
        · cases h
        · dsimp only at h
          split at h
          · cases h
          · split at h
            · cases h
            · split at h <;> cases h
      · cases h

theorem flatMap_text_ofText (cs : List Char) : (ofText cs).flatMap (·.text) = cs := by
  induction cs using ofText.induct with
  | case1 => rw [ofText]; rfl
  | case2 c cs kind cut hscan ih =>
      rw [ofText, hscan, List.flatMap_cons, ih, List.cons_append, cut.eq]

theorem of_mem_ofText {cs : List Char} {lexeme : Lexeme} (h : lexeme ∈ ofText cs) :
    lexeme.text ≠ [] ∧ (lexeme.kind = .word → IsWordText lexeme.text) := by
  induction cs using ofText.induct with
  | case1 => simp [ofText] at h
  | case2 c cs kind cut hscan ih =>
      rw [ofText, hscan] at h
      rcases List.mem_cons.mp h with rfl | h
      · refine ⟨List.cons_ne_nil _ _, fun hkind => ?_⟩
        cases hkind
        exact scan_eq_word hscan
      · exact ih h

theorem isSpace_of_scan {c : Char} {cs : List Char} {kind : Kind} {cut : Cut cs}
    (h : scan c cs = (kind, cut)) (hkind : kind ≠ .trivia) : isSpace c = false := by
  unfold scan at h
  split at h
  · cases h
    exact absurd rfl hkind
  · rename_i hc
    simpa using hc

/-- What is no trivia does not begin with white space. -/
theorem exists_cons_of_mem_ofText {cs : List Char} {lexeme : Lexeme} (h : lexeme ∈ ofText cs)
    (hkind : lexeme.kind ≠ .trivia) :
    ∃ c rest, lexeme.text = c :: rest ∧ isSpace c = false := by
  induction cs using ofText.induct with
  | case1 => simp [ofText] at h
  | case2 c cs kind cut hscan ih =>
      rw [ofText, hscan] at h
      rcases List.mem_cons.mp h with rfl | h
      · exact ⟨c, cut.taken, rfl, isSpace_of_scan hscan hkind⟩
      · exact ih h

end Lexeme

/-! ### Words among tokens -/

namespace Token

/-- Tokens that stand one after another between two offsets, none of them empty. -/
def Between (lo hi : Nat) : List Token → Prop
  | [] => lo ≤ hi
  | token :: tokens =>
      lo ≤ token.span.start ∧ token.span.start < token.span.stop ∧
        Between token.span.stop hi tokens

theorem Between.le {lo hi : Nat} {tokens : List Token} (h : Between lo hi tokens) : lo ≤ hi := by
  induction tokens generalizing lo with
  | nil => exact h
  | cons token tokens ih =>
      obtain ⟨hlo, hlt, hrest⟩ := h
      have hle := ih hrest
      omega

theorem Between.of_le {lo lo' hi : Nat} {tokens : List Token} (h : Between lo hi tokens)
    (hle : lo' ≤ lo) : Between lo' hi tokens := by
  cases tokens with
  | nil => exact Nat.le_trans hle h
  | cons token tokens => exact ⟨Nat.le_trans hle h.1, h.2⟩

theorem Between.exists_append {lo hi : Nat} {front back : List Token}
    (h : Between lo hi (front ++ back)) :
    ∃ middle, Between lo middle front ∧ Between middle hi back := by
  induction front generalizing lo with
  | nil => exact ⟨lo, Nat.le_refl lo, h⟩
  | cons token front ih =>
      obtain ⟨hlo, hlt, hrest⟩ := h
      obtain ⟨middle, hfront, hback⟩ := ih hrest
      exact ⟨middle, ⟨hlo, hlt, hfront⟩, hback⟩

theorem between_place {offset : Nat} {lexemes : List Lexeme}
    (h : ∀ lexeme ∈ lexemes, lexeme.text ≠ []) :
    Between offset (offset + byteSize (lexemes.flatMap (·.text))) (place offset lexemes) := by
  induction lexemes generalizing offset with
  | nil => exact Nat.le_refl offset
  | cons lexeme lexemes ih =>
      obtain ⟨hlexeme, hlexemes⟩ := List.forall_mem_cons.mp h
      have hsize := byteSize_pos hlexeme
      have hrest := @ih (offset + byteSize lexeme.text) hlexemes
      rw [List.flatMap_cons, byteSize_append, ← Nat.add_assoc, place]
      split
      · exact ⟨Nat.le_refl offset, Nat.lt_add_of_pos_right hsize, hrest⟩
      · exact hrest.of_le (Nat.le_add_right offset _)

theorem between_ofText (cs : List Char) : Between 0 (byteSize cs) (ofText cs) := by
  have h : Between 0 _ (ofText cs) :=
    between_place fun _ hlexeme => (Lexeme.of_mem_ofText hlexeme).1
  rwa [Lexeme.flatMap_text_ofText, Nat.zero_add] at h

/-- A token of some lexemes is made of one of them, with the others around it. -/
theorem exists_of_mem_place {offset : Nat} {lexemes : List Lexeme} {token : Token}
    (h : token ∈ place offset lexemes) :
    ∃ front lexeme back, lexemes = front ++ lexeme :: back ∧
      Kind.ofLexeme? lexeme = some token.kind ∧
      token.span = ⟨offset + byteSize (front.flatMap (·.text)),
        offset + byteSize (front.flatMap (·.text)) + byteSize lexeme.text⟩ := by
  induction lexemes generalizing offset with
  | nil => cases h
  | cons lexeme lexemes ih =>
      have hlater (hmem : token ∈ place (offset + byteSize lexeme.text) lexemes) :
          ∃ front found back, lexeme :: lexemes = front ++ found :: back ∧
            Kind.ofLexeme? found = some token.kind ∧
            token.span = ⟨offset + byteSize (front.flatMap (·.text)),
              offset + byteSize (front.flatMap (·.text)) + byteSize found.text⟩ := by
        obtain ⟨front, found, back, rfl, hkind, hspan⟩ := ih hmem
        refine ⟨lexeme :: front, found, back, rfl, hkind, ?_⟩
        rw [hspan, List.flatMap_cons, byteSize_append, Nat.add_assoc offset]
      rw [place] at h
      split at h
      · rename_i kind hkind
        rcases List.mem_cons.mp h with rfl | h
        · exact ⟨[], lexeme, lexemes, rfl, hkind, rfl⟩
        · exact hlater h
      · exact hlater h

theorem kind_of_ofLexeme? {lexeme : Lexeme} {text : String}
    (h : Kind.ofLexeme? lexeme = some (.word text)) : lexeme.kind = .word := by
  unfold Kind.ofLexeme? at h
  split at h <;> simp_all

theorem kind_of_isName {token : Token} (h : token.isName = true) :
    ∃ text, token.kind = .word text := by
  unfold isName at h
  split at h
  · exact ⟨_, ‹_›⟩
  · cases h

/-- A token stands in its text, and does not begin with white space. -/
theorem exists_append_of_mem_ofText {cs : List Char} {token : Token} (h : token ∈ ofText cs) :
    ∃ front c rest back, cs = front ++ (c :: rest ++ back) ∧ Lexeme.isSpace c = false ∧
      token.span = ⟨byteSize front, byteSize front + byteSize (c :: rest)⟩ := by
  obtain ⟨front, lexeme, back, hlexemes, hlexeme, hspan⟩ := exists_of_mem_place h
  have hmem : lexeme ∈ Lexeme.ofText cs := by
    rw [hlexemes]
    exact List.mem_append_right front List.mem_cons_self
  have hkind : lexeme.kind ≠ .trivia := by
    intro hkind
    simp [Kind.ofLexeme?, hkind] at hlexeme
  obtain ⟨c, rest, htext, hc⟩ := Lexeme.exists_cons_of_mem_ofText hmem hkind
  refine ⟨front.flatMap (·.text), c, rest, back.flatMap (·.text), ?_, hc, ?_⟩
  · conv_lhs => rw [← Lexeme.flatMap_text_ofText cs, hlexemes]
    rw [List.flatMap_append, List.flatMap_cons, htext]
  · rw [hspan, htext, Nat.zero_add]

/-- A name stands in its text as a word. -/
theorem exists_of_mem_ofText {cs : List Char} {token : Token} (h : token ∈ ofText cs)
    (hname : token.isName = true) :
    ∃ front word back, cs = front ++ (word ++ back) ∧ IsWordText word ∧
      token.span = ⟨byteSize front, byteSize front + byteSize word⟩ := by
  obtain ⟨text, hword⟩ := kind_of_isName hname
  obtain ⟨front, lexeme, back, hlexemes, hlexeme, hspan⟩ := exists_of_mem_place h
  have hkind : lexeme.kind = .word := kind_of_ofLexeme? (hword ▸ hlexeme)
  have hmem : lexeme ∈ Lexeme.ofText cs := by
    rw [hlexemes]
    exact List.mem_append_right front List.mem_cons_self
  refine ⟨front.flatMap (·.text), lexeme.text, back.flatMap (·.text), ?_,
    (Lexeme.of_mem_ofText hmem).2 hkind, ?_⟩
  · conv_lhs => rw [← Lexeme.flatMap_text_ofText cs, hlexemes]
    rw [List.flatMap_append, List.flatMap_cons]
  · simpa using hspan

end Token

end ResourceLanguage.CSharp
