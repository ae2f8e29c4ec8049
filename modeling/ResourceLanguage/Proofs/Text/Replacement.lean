import Mathlib.Data.List.Infix
import ResourceLanguage.Text.Basic

/-!
Replacing a piece whose first character stands nowhere else in it. Occurrences of such a piece do
not overlap, so that they can be counted and replaced apart. A replacement leaves a text as it was
only if it finds nothing or puts the piece back.
-/

namespace ResourceLanguage.Text

/-- The number of places where a piece is found in a text. -/
def occurrences (piece : List Char) : List Char → Nat
  | [] => 0
  | c :: cs => (if piece.isPrefixOf (c :: cs) then 1 else 0) + occurrences piece cs

@[simp] theorem occurrences_nil (piece : List Char) : occurrences piece [] = 0 := rfl

theorem occurrences_cons (piece : List Char) (c : Char) (cs : List Char) :
    occurrences piece (c :: cs) =
      (if piece.isPrefixOf (c :: cs) then 1 else 0) + occurrences piece cs := rfl

/-- A piece that can begin only where it does not go on: its first character is not repeated. -/
def StandsApart (piece : List Char) : Prop :=
  ∃ first rest, piece = first :: rest ∧ first ∉ rest

/-! ### Where the piece is found -/

theorem isPrefixOf_self_append (piece rest : List Char) :
    piece.isPrefixOf (piece ++ rest) = true := by
  rw [List.isPrefixOf_iff_prefix]
  exact List.prefix_append piece rest

section Beginnings

variable {first : Char} {piece : List Char}

/-- A piece ends before a character that it does not have. -/
theorem prefix_of_prefix_append_cons (h : first ∉ piece) {text rest : List Char}
    (hstart : piece <+: text ++ first :: rest) : piece <+: text := by
  rcases List.prefix_or_prefix_of_prefix hstart (List.prefix_append text _) with hle | ⟨more, rfl⟩
  · exact hle
  · rw [List.prefix_append_right_inj] at hstart
    cases more with
    | nil => exact ⟨[], by simp⟩
    | cons d more =>
        rw [List.cons_prefix_cons] at hstart
        exact absurd (by simp [hstart.1]) h

/-- The piece is not found across a place where it could begin. -/
theorem isPrefixOf_append_cons (h : first ∉ piece) (c : Char) (text rest : List Char) :
    (first :: piece).isPrefixOf (c :: (text ++ first :: rest)) =
      (first :: piece).isPrefixOf (c :: text) := by
  rw [Bool.eq_iff_iff, List.isPrefixOf_iff_prefix, List.isPrefixOf_iff_prefix,
    List.cons_prefix_cons, List.cons_prefix_cons]
  refine and_congr_right fun _ => ⟨prefix_of_prefix_append_cons h, fun hstart => ?_⟩
  exact hstart.trans (List.prefix_append text _)

theorem occurrences_of_notMem {text : List Char} (h : first ∉ text) (rest : List Char) :
    occurrences (first :: piece) (text ++ rest) = occurrences (first :: piece) rest := by
  induction text with
  | nil => rfl
  | cons c text ih =>
      rw [List.mem_cons, not_or] at h
      have hhead : (first :: piece).isPrefixOf (c :: (text ++ rest)) = false := by
        simp [List.isPrefixOf, h.1]
      simp [occurrences_cons, hhead, ih h.2]

end Beginnings

/-- A text is read as a replacement reads it: it begins with the piece, or with a character at which
the piece is not found. -/
@[elab_as_elim]
theorem replacement_induction {piece : List Char} (hne : piece ≠ []) {motive : List Char → Prop}
    (nil : motive [])
    (found : ∀ rest, motive rest → motive (piece ++ rest))
    (other : ∀ c cs, piece.isPrefixOf (c :: cs) = false → motive cs → motive (c :: cs))
    (text : List Char) : motive text := by
  obtain ⟨first, piece, rfl⟩ := List.exists_cons_of_ne_nil hne
  fun_induction replaceAll (first :: piece) [] text with
  | case1 => exact nil
  | case2 c cs hfound ih =>
      rw [Bool.and_eq_true, List.isPrefixOf_iff_prefix] at hfound
      obtain ⟨⟨rest, hrest⟩, _⟩ := hfound
      obtain ⟨rfl, rfl⟩ : first = c ∧ piece ++ rest = cs := by simpa using hrest
      exact found rest (by simpa using ih)
  | case3 c cs hfound ih =>
      rw [List.isEmpty_cons, Bool.not_false, Bool.and_true, Bool.not_eq_true] at hfound
      exact other c cs hfound ih

theorem replaceAll_self_append {piece : List Char} (hne : piece ≠ [])
    (replacement rest : List Char) :
    replaceAll piece replacement (piece ++ rest) =
      replacement ++ replaceAll piece replacement rest := by
  have hfound := isPrefixOf_self_append piece rest
  obtain ⟨first, piece, rfl⟩ := List.exists_cons_of_ne_nil hne
  rw [List.cons_append] at hfound ⊢
  rw [replaceAll, hfound]
  simp

theorem replaceAll_cons {piece : List Char} (replacement : List Char) {c : Char} {cs : List Char}
    (h : piece.isPrefixOf (c :: cs) = false) :
    replaceAll piece replacement (c :: cs) = c :: replaceAll piece replacement cs := by
  rw [replaceAll, h]
  simp

/-- Characters come from the text or from the replacement. -/
theorem mem_of_mem_replaceAll {piece replacement text : List Char} {c : Char}
    (h : c ∈ replaceAll piece replacement text) : c ∈ text ∨ c ∈ replacement := by
  fun_induction replaceAll piece replacement text with
  | case1 => cases h
  | case2 first text hfound ih =>
      rcases List.mem_append.mp h with h | h
      · exact .inr h
      · exact (ih h).imp_left fun h => List.mem_cons_of_mem first (List.mem_of_mem_drop h)
  | case3 first text hfound ih =>
      rcases List.mem_cons.mp h with rfl | h
      · exact .inl List.mem_cons_self
      · exact (ih h).imp_left (List.mem_cons_of_mem first)

/-! ### Pieces that stand apart -/

namespace StandsApart

variable {piece : List Char} (h : StandsApart piece)
include h

theorem ne_nil : piece ≠ [] := by
  obtain ⟨first, rest, rfl, _⟩ := h
  exact List.cons_ne_nil first rest

/-- What stands before an occurrence has nothing to do with it. -/
theorem isPrefixOf_append (c : Char) (text rest : List Char) :
    piece.isPrefixOf (c :: (text ++ (piece ++ rest))) = piece.isPrefixOf (c :: text) := by
  obtain ⟨first, piece, rfl, hfirst⟩ := h
  rw [List.cons_append, isPrefixOf_append_cons hfirst]

theorem occurrences_append (text rest : List Char) :
    occurrences piece (text ++ (piece ++ rest)) =
      occurrences piece text + (occurrences piece rest + 1) := by
  induction text with
  | nil =>
      have hfound := isPrefixOf_self_append piece rest
      obtain ⟨first, piece, rfl, hfirst⟩ := h
      rw [List.cons_append] at hfound
      rw [List.nil_append, List.cons_append, occurrences_cons, hfound,
        occurrences_of_notMem hfirst, occurrences_nil, if_pos rfl, Nat.zero_add, Nat.add_comm]
  | cons c text ih =>
      rw [List.cons_append, occurrences_cons, h.isPrefixOf_append, ih, occurrences_cons,
        Nat.add_assoc]

theorem replaceAll_append (replacement text rest : List Char) :
    replaceAll piece replacement (text ++ (piece ++ rest)) =
      replaceAll piece replacement text ++ (replacement ++ replaceAll piece replacement rest) := by
  induction text using replacement_induction h.ne_nil with
  | nil => rw [List.nil_append, replaceAll_self_append h.ne_nil, replaceAll, List.nil_append]
  | found text ih =>
      rw [List.append_assoc, replaceAll_self_append h.ne_nil, ih, replaceAll_self_append h.ne_nil,
        List.append_assoc]
  | other c cs hc ih =>
      rw [List.cons_append, replaceAll_cons replacement ((h.isPrefixOf_append c cs rest).trans hc),
        replaceAll_cons replacement hc, ih, List.cons_append]

/-- Every occurrence changes the length by the same number. -/
theorem length_replaceAll (replacement text : List Char) :
    (replaceAll piece replacement text).length + occurrences piece text * piece.length =
      text.length + occurrences piece text * replacement.length := by
  induction text using replacement_induction h.ne_nil with
  | nil => simp [replaceAll]
  | found text ih =>
      have hcount := h.occurrences_append [] text
      rw [List.nil_append, occurrences_nil, Nat.zero_add] at hcount
      rw [replaceAll_self_append h.ne_nil, hcount, List.length_append, List.length_append,
        Nat.add_mul, Nat.add_mul]
      omega
  | other c cs hc ih =>
      rw [replaceAll_cons replacement hc, occurrences_cons, hc, if_neg Bool.false_ne_true,
        Nat.zero_add, List.length_cons, List.length_cons]
      omega

theorem replaceAll_eq_self_iff (replacement text : List Char) :
    replaceAll piece replacement text = text ↔
      replacement = piece ∨ occurrences piece text = 0 := by
  induction text using replacement_induction h.ne_nil with
  | nil => simp [replaceAll]
  | found text ih =>
      have hcount := h.occurrences_append [] text
      rw [List.nil_append, occurrences_nil, Nat.zero_add] at hcount
      rw [replaceAll_self_append h.ne_nil, hcount]
      constructor
      · intro heq
        -- Every occurrence adds the same number of characters, which can only be none.
        have hlength := h.length_replaceAll replacement text
        have hsame := congrArg List.length heq
        rw [List.length_append, List.length_append] at hsame
        have hmul : (occurrences piece text + 1) * replacement.length =
            (occurrences piece text + 1) * piece.length := by
          rw [Nat.add_mul, Nat.add_mul]
          omega
        exact .inl (List.append_inj_left heq (Nat.eq_of_mul_eq_mul_left (Nat.succ_pos _) hmul))
      · rintro (rfl | hnone)
        · rw [ih.mpr (.inl rfl)]
        · exact absurd hnone (Nat.succ_ne_zero _)
  | other c cs hc ih =>
      rw [replaceAll_cons replacement hc, occurrences_cons, hc, List.cons_inj_right, ih]
      simp

end StandsApart

end ResourceLanguage.Text
