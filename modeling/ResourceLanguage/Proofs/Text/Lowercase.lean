import Mathlib.Data.List.Basic
import ResourceLanguage.Text.Lowercase

/-!
Lowercasing of a text that stands behind another one. What stands before a text makes a difference
to its small form in one respect only: whether a letter comes before it. This decides about a sigma
that is the first letter of the text if no other letter follows it, and about nothing else.
-/

namespace ResourceLanguage.Text

/-! ### What stands before a text -/

theorem casedNext_cons (c : Char) (cs : List Char) :
    casedNext (c :: cs) =
      if caseIgnorableTable.contains c then casedNext cs else casedTable.contains c := by
  rw [casedNext, List.dropWhile_cons]
  split <;> rfl

theorem casedNext_cons_congr {before before' : List Char} (h : casedNext before = casedNext before')
    (c : Char) : casedNext (c :: before) = casedNext (c :: before') := by
  rw [casedNext_cons, casedNext_cons, h]

/-- What stands before a text counts only as far as a letter comes before it or not. -/
theorem lowercaseAfter_congr {before before' : List Char} (h : casedNext before = casedNext before')
    (cs : List Char) : lowercaseAfter before cs = lowercaseAfter before' cs := by
  induction cs generalizing before before' with
  | nil => rfl
  | cons c cs ih =>
      rw [lowercaseAfter, lowercaseAfter, h, ih (casedNext_cons_congr h c)]

/-- The small form of a text ends with the small form of its end, behind what stands before. -/
theorem exists_lowercaseAfter_append (before front back : List Char) :
    ∃ lower, lowercaseAfter before (front ++ back) =
      lower ++ lowercaseAfter (front.reverse ++ before) back := by
  induction front generalizing before with
  | nil => exact ⟨[], rfl⟩
  | cons c front ih =>
      obtain ⟨lower, hlower⟩ := ih (c :: before)
      rw [List.cons_append, lowercaseAfter, hlower, List.reverse_cons, List.append_assoc,
        ← List.append_assoc]
      exact ⟨_, rfl⟩

theorem length_lowercaseAfter (before before' cs : List Char) :
    (lowercaseAfter before cs).length = (lowercaseAfter before' cs).length := by
  induction cs generalizing before before' with
  | nil => rfl
  | cons c cs ih =>
      rw [lowercaseAfter, lowercaseAfter, List.length_append, List.length_append,
        ih (c :: before) (c :: before')]
      split <;> rfl

/-! ### A sigma as the first letter -/

/-- Whether the first character that is not passed over is a sigma, and no letter comes next after
it. Such a sigma is final if a letter stands before the text, and it is not final in the text
alone. -/
def hasOpenSigma (cs : List Char) : Bool :=
  match cs.dropWhile caseIgnorableTable.contains with
  | [] => false
  | c :: rest => c = 'Σ' && !casedNext rest

theorem hasOpenSigma_cons (c : Char) (cs : List Char) :
    hasOpenSigma (c :: cs) =
      if caseIgnorableTable.contains c then hasOpenSigma cs else c = 'Σ' && !casedNext cs := by
  rw [hasOpenSigma, List.dropWhile_cons]
  by_cases hc : caseIgnorableTable.contains c = true
  · rw [if_pos hc, if_pos hc, hasOpenSigma]
  · rw [if_neg hc, if_neg hc]

theorem caseIgnorable_sigma : caseIgnorableTable.contains 'Σ' = false := by decide +kernel

/-- A letter before a text makes a difference to its small form exactly if the text has a sigma as
its first letter and no other letter follows that. -/
theorem lowercaseAfter_eq_iff {before before' : List Char} (hbefore : casedNext before = true)
    (hbefore' : casedNext before' = false) (cs : List Char) :
    lowercaseAfter before cs = lowercaseAfter before' cs ↔ hasOpenSigma cs = false := by
  induction cs generalizing before before' with
  | nil => exact iff_of_true rfl rfl
  | cons c cs ih =>
      rw [lowercaseAfter, lowercaseAfter, hasOpenSigma_cons]
      by_cases hc : caseIgnorableTable.contains c = true
      · -- A character that is passed over is no sigma, and the question is put to the rest.
        have hsigma : c ≠ 'Σ' := by
          rintro rfl
          rw [caseIgnorable_sigma] at hc
          cases hc
        rw [if_neg hsigma, if_neg hsigma, if_pos hc, List.append_cancel_left_eq]
        apply ih
        · rwa [casedNext_cons, if_pos hc]
        · rwa [casedNext_cons, if_pos hc]
      · -- Behind any other character it no longer matters what stands before the text.
        have htail : lowercaseAfter (c :: before) cs = lowercaseAfter (c :: before') cs := by
          apply lowercaseAfter_congr
          rw [casedNext_cons, casedNext_cons, if_neg hc, if_neg hc]
        rw [htail, List.append_cancel_right_eq, if_neg hc, hbefore, hbefore']
        by_cases hsigma : c = 'Σ'
        · cases hnext : casedNext cs <;> simp [hsigma]
        · simp [hsigma]

/-! ### Case of seven-bit letters -/

/-- Texts that differ at most in the case of letters of the seven-bit range. -/
def SameLetters (cs ds : List Char) : Prop := cs.map Char.toLower = ds.map Char.toLower

instance (cs ds : List Char) : Decidable (SameLetters cs ds) :=
  inferInstanceAs (Decidable (_ = _))

/-- The case of a seven-bit letter has no part in the small form of a text. -/
theorem of_toLower (c : Char) :
    lowerChar c.toLower = lowerChar c ∧
      caseIgnorableTable.contains c.toLower = caseIgnorableTable.contains c ∧
      casedTable.contains c.toLower = casedTable.contains c ∧ (c.toLower = 'Σ' ↔ c = 'Σ') := by
  by_cases hcapital : 65 ≤ c.toNat ∧ c.toNat ≤ 90
  · have hletters : ∀ n ∈ List.range' 65 26,
        lowerChar (Char.ofNat n).toLower = lowerChar (Char.ofNat n) ∧
          caseIgnorableTable.contains (Char.ofNat n).toLower =
            caseIgnorableTable.contains (Char.ofNat n) ∧
          casedTable.contains (Char.ofNat n).toLower = casedTable.contains (Char.ofNat n) ∧
          ((Char.ofNat n).toLower = 'Σ' ↔ Char.ofNat n = 'Σ') := by decide +kernel
    have hmem : c.toNat ∈ List.range' 65 26 := by
      rw [List.mem_range'_1]
      omega
    have hc := hletters c.toNat hmem
    rwa [Char.ofNat_toNat] at hc
  · have hsame : c.toLower = c := dif_neg hcapital
    rw [hsame]
    exact ⟨rfl, rfl, rfl, Iff.rfl⟩

theorem casedNext_map_toLower (cs : List Char) :
    casedNext (cs.map Char.toLower) = casedNext cs := by
  induction cs with
  | nil => rfl
  | cons c cs ih =>
      obtain ⟨-, hignorable, hcased, -⟩ := of_toLower c
      rw [List.map_cons, casedNext_cons, casedNext_cons, hignorable, hcased, ih]

theorem hasOpenSigma_map_toLower (cs : List Char) :
    hasOpenSigma (cs.map Char.toLower) = hasOpenSigma cs := by
  induction cs with
  | nil => rfl
  | cons c cs ih =>
      obtain ⟨-, hignorable, -, hsigma⟩ := of_toLower c
      rw [List.map_cons, hasOpenSigma_cons, hasOpenSigma_cons, hignorable, ih,
        casedNext_map_toLower]
      simp only [hsigma]

theorem lowercaseAfter_map_toLower (before cs : List Char) :
    lowercaseAfter before (cs.map Char.toLower) = lowercaseAfter before cs := by
  induction cs generalizing before with
  | nil => rfl
  | cons c cs ih =>
      obtain ⟨hlower, hignorable, hcased, hsigma⟩ := of_toLower c
      have hbefore : casedNext (c.toLower :: before) = casedNext (c :: before) := by
        rw [casedNext_cons, casedNext_cons, hignorable, hcased]
      rw [List.map_cons, lowercaseAfter, lowercaseAfter, ih, lowercaseAfter_congr hbefore,
        casedNext_map_toLower, hlower]
      simp only [hsigma]

theorem SameLetters.lowercaseAfter_eq {cs ds : List Char} (h : SameLetters cs ds)
    (before : List Char) : lowercaseAfter before cs = lowercaseAfter before ds := by
  rw [← lowercaseAfter_map_toLower before cs, h, lowercaseAfter_map_toLower]

theorem SameLetters.hasOpenSigma_eq {cs ds : List Char} (h : SameLetters cs ds) :
    hasOpenSigma cs = hasOpenSigma ds := by
  rw [← hasOpenSigma_map_toLower cs, h, hasOpenSigma_map_toLower]

/-! ### Ends of texts -/

/-- The small form of a text ends with the small form of an end of it, unless a letter stands before
that end and its first letter is a sigma that no other letter follows. -/
theorem lowercase_suffix_iff (front back : List Char) :
    lowercase back <:+ lowercase (front ++ back) ↔
      ¬(casedNext front.reverse = true ∧ hasOpenSigma back = true) := by
  obtain ⟨lower, hlower⟩ := exists_lowercaseAfter_append [] front back
  rw [List.append_nil] at hlower
  have hsuffix : lowercase back <:+ lowercase (front ++ back) ↔
      lowercaseAfter front.reverse back = lowercaseAfter [] back := by
    rw [lowercase, lowercase, hlower]
    constructor
    · rintro ⟨other, hother⟩
      exact (List.append_inj_right' hother (length_lowercaseAfter _ _ _)).symm
    · intro heq
      rw [heq]
      exact List.suffix_append _ _
  rw [hsuffix]
  cases hfront : casedNext front.reverse with
  | false => simp [lowercaseAfter_congr (hfront.trans rfl : _ = casedNext []) back]
  | true => simp [lowercaseAfter_eq_iff hfront (rfl : casedNext [] = false)]

end ResourceLanguage.Text
