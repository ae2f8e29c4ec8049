import Mathlib.Data.List.Perm.Basic
import Mathlib.Data.List.Sort
import Mathlib.Data.Prod.Lex
import Mathlib.Data.String.Basic
import ResourceLanguage.Location
import ResourceLanguage.Text.Basic

/-!
Sorted sets of texts, lists that are cut up by the texts in such a set, sorting by a key, and the
order of places, which is the lexicographic order of file, line and column.
-/

namespace ResourceLanguage

namespace Text

theorem nodup_eraseDups (texts : List String) : texts.eraseDups.Nodup := by
  match texts with
  | [] => exact List.nodup_nil
  | text :: texts =>
      rw [List.eraseDups_cons, List.nodup_cons, List.mem_eraseDups]
      exact ⟨by simp, nodup_eraseDups _⟩
termination_by texts.length
decreasing_by
  exact Nat.lt_succ_of_le (List.length_filter_le _ _)

theorem nodup_sortedSet (texts : List String) : (sortedSet texts).Nodup :=
  (List.mergeSort_perm _ _).nodup_iff.mpr (nodup_eraseDups texts)

@[simp] theorem mem_sortedSet {text : String} {texts : List String} :
    text ∈ sortedSet texts ↔ text ∈ texts := by
  rw [sortedSet, (List.mergeSort_perm _ _).mem_iff, List.mem_eraseDups]

theorem pairwise_sortedSet (texts : List String) : (sortedSet texts).Pairwise (· < ·) := by
  have hsorted : (sortedSet texts).Pairwise (· ≤ ·) := by
    refine (List.pairwise_mergeSort ?_ ?_ texts.eraseDups).imp ?_
    · intro a b c hab hbc
      simp only [Bool.not_eq_true', decide_eq_false_iff_not, not_lt] at *
      exact hab.trans hbc
    · intro a b
      simp only [Bool.or_eq_true, Bool.not_eq_true', decide_eq_false_iff_not, not_lt]
      exact le_total a b
    · intro a b hab
      simpa only [Bool.not_eq_true', decide_eq_false_iff_not, not_lt] using hab
  exact hsorted.imp₂ (fun _ _ hle hne => lt_of_le_of_ne hle hne) (nodup_sortedSet texts)

theorem sortedSet_eq_of_perm {texts texts' : List String} (h : texts.Perm texts') :
    sortedSet texts = sortedSet texts' := by
  refine (pairwise_sortedSet texts).eq_of_mem_iff (pairwise_sortedSet texts') fun text => ?_
  rw [mem_sortedSet, mem_sortedSet, h.mem_iff]

theorem sortedSet_of_pairwise {texts : List String} (h : texts.Pairwise (· < ·)) :
    sortedSet texts = texts :=
  (pairwise_sortedSet texts).eq_of_mem_iff h fun _ => mem_sortedSet

/-- A list cut up by the keys of its members has every member once. -/
theorem perm_flatMap_filter_key {α : Type} (key : α → String) {keys : List String}
    (hnodup : keys.Nodup) (xs : List α) (hmem : ∀ x ∈ xs, key x ∈ keys) :
    (keys.flatMap fun k => xs.filter fun x => key x == k).Perm xs := by
  induction keys generalizing xs with
  | nil =>
      have hxs : xs = [] := List.eq_nil_iff_forall_not_mem.mpr fun x hx => by
        simpa using hmem x hx
      simp [hxs]
  | cons k keys ih =>
      obtain ⟨hk, hkeys⟩ := List.nodup_cons.mp hnodup
      have hrest := ih hkeys (xs.filter fun x => !(key x == k)) (by
        intro x hx
        obtain ⟨hx, hne⟩ := List.mem_filter.mp hx
        have := hmem x hx
        simp_all)
      -- The members with another key are not among those that were put aside for `k`.
      have hsame : (keys.flatMap fun k' =>
            (xs.filter fun x => !(key x == k)).filter fun x => key x == k') =
          keys.flatMap fun k' => xs.filter fun x => key x == k' := by
        refine List.flatMap_congr fun k' hk' => ?_
        rw [List.filter_filter]
        refine List.filter_congr fun x _ => ?_
        by_cases hx : key x = k'
        · have hne : k' ≠ k := by
            rintro rfl
            exact hk hk'
          simp [hx, hne]
        · simp [hx]
      rw [hsame] at hrest
      rw [List.flatMap_cons]
      exact (hrest.append_left _).trans (List.filter_append_perm _ xs)

end Text

section SortByKey

variable {α κ : Type} [LinearOrder κ] {key : α → κ} {le : α → α → Bool}
  (hle : ∀ a b, le a b = true ↔ key a ≤ key b)
include hle

theorem le_trans_of_key (a b c : α) (hab : le a b = true) (hbc : le b c = true) :
    le a c = true := by
  rw [hle] at *
  exact hab.trans hbc

theorem le_total_of_key (a b : α) : (le a b || le b a) = true := by
  rw [Bool.or_eq_true, hle, hle]
  exact le_total (key a) (key b)

theorem pairwise_mergeSort_key (xs : List α) :
    (xs.mergeSort le).Pairwise fun a b => key a ≤ key b :=
  (List.pairwise_mergeSort (le_trans_of_key hle) (le_total_of_key hle) xs).imp
    fun h => (hle _ _).mp h

/-- What has the same key stays in the order in which it was. -/
theorem filter_mergeSort_key (k : κ) (xs : List α) :
    ((xs.mergeSort le).filter fun x => key x = k) = xs.filter fun x => key x = k := by
  have hsorted : (xs.filter fun x => key x = k).Pairwise fun a b => le a b = true := by
    refine List.Pairwise.imp_mem.mpr (List.pairwise_of_forall ?_)
    intro a b ha hb
    rw [List.mem_filter, decide_eq_true_eq] at ha hb
    rw [hle, ha.2, hb.2]
  have hsublist : (xs.filter fun x => key x = k).Sublist (xs.mergeSort le) :=
    List.sublist_mergeSort (le_trans_of_key hle) (le_total_of_key hle) hsorted
      List.filter_sublist
  have hfilter := hsublist.filter fun x => key x = k
  simp only [List.filter_filter, Bool.and_self] at hfilter
  have hlength := ((List.mergeSort_perm xs le).filter fun x => key x = k).length_eq
  exact (hfilter.eq_of_length hlength.symm).symm

/-- Where the keys are distinct, the order in which things come does not matter. -/
theorem mergeSort_eq_of_perm {xs ys : List α} (hperm : xs.Perm ys) (hnodup : (xs.map key).Nodup) :
    xs.mergeSort le = ys.mergeSort le := by
  refine List.Perm.eq_of_pairwise ?_ (pairwise_mergeSort_key hle xs)
    (pairwise_mergeSort_key hle ys)
    (((List.mergeSort_perm xs le).trans hperm).trans (List.mergeSort_perm ys le).symm)
  intro a b ha hb hab hba
  rw [List.mem_mergeSort] at ha hb
  exact List.inj_on_of_nodup_map hnodup ha (hperm.mem_iff.mpr hb) (le_antisymm hab hba)

end SortByKey

namespace Location

/-- What places are ordered by. -/
def key (location : Location) : String ×ₗ ℕ ×ₗ ℕ :=
  toLex (location.file, toLex (location.line, location.col))

theorem le_iff_key_le (a b : Location) : a.le b = true ↔ a.key ≤ b.key := by
  rw [key, key, Prod.Lex.toLex_le_toLex, Prod.Lex.toLex_le_toLex, le]
  by_cases hfile : a.file = b.file
  · by_cases hline : a.line = b.line
    · simp [hfile, hline]
    · simp [hfile, hline]
  · simp only [bne_iff_ne, ne_eq, hfile, not_false_eq_true, if_true, decide_eq_true_eq,
      false_and, or_false]

/-- Sorting by places puts the places in their order. -/
theorem pairwise_key_mergeSort {α : Type} (place : α → Location) (xs : List α) :
    (xs.mergeSort fun a b => (place a).le (place b)).Pairwise
      fun a b => (place a).key ≤ (place b).key :=
  pairwise_mergeSort_key (fun a b => le_iff_key_le (place a) (place b)) xs

end Location

end ResourceLanguage
