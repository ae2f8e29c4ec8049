import ResourceLanguage.Diff.Compact
import ResourceLanguage.Proofs.Diff.Script

/-!
Moving the changes of a script together does not change what it says: every move replaces a few
neighbouring steps by others with the same readings.
-/

namespace ResourceLanguage.Diff

variable {α : Type}

/-- A script that says the same as another, and has no empty changes if that one has none. -/
structure Same (script script' : List (Edit α)) : Prop where
  old : Edit.oldOf script' = Edit.oldOf script
  new : Edit.newOf script' = Edit.newOf script
  proper : Edit.Proper script → Edit.Proper script'

namespace Same

theorem refl (script : List (Edit α)) : Same script script := ⟨rfl, rfl, id⟩

theorem trans {s₁ s₂ s₃ : List (Edit α)} (h : Same s₁ s₂) (h' : Same s₂ s₃) : Same s₁ s₃ :=
  ⟨h'.old.trans h.old, h'.new.trans h.new, h'.proper ∘ h.proper⟩

theorem turns {as bs : List α} {script script' : List (Edit α)} (h : Same script script')
    (hturns : Turns as bs script) : Turns as bs script' :=
  ⟨h.old.trans hturns.old, h.new.trans hturns.new, h.proper hturns.proper⟩

/-- Steps may be replaced wherever they stand. -/
theorem within {middle middle' : List (Edit α)} (h : Same middle middle')
    (front back : List (Edit α)) :
    Same (front ++ (middle ++ back)) (front ++ (middle' ++ back)) where
  old := by simp only [Edit.oldOf_append, h.old]
  new := by simp only [Edit.newOf_append, h.new]
  proper := by
    simp only [Edit.proper_append]
    exact And.imp_right (And.imp_left h.proper)

end Same

/-! ### Single moves -/

@[simp] theorem Edit.items_keep (items : List α) : (Edit.keep items).items = items := rfl

theorem Edit.exists_keep {edit : Edit α} (h : edit.action = .keep) :
    ∃ items, edit = .keep items := by
  obtain ⟨action, items⟩ := edit
  cases h
  exact ⟨items, rfl⟩

theorem same_keep_nil : Same [Edit.keep ([] : List α)] [] := ⟨rfl, rfl, by simp [Edit.Proper]⟩

theorem same_keep_append (items items' : List α) :
    Same [.keep items, .keep items'] [.keep (items ++ items')] where
  old := by simp
  new := by simp
  proper := by simp [Edit.Proper, Edit.keep]

/-- A change absorbs another of its sort. -/
theorem same_absorb {first second : Edit α} {action : Action} (hfirst : first.action = action)
    (hsecond : second.action = action) :
    Same [first, second] [⟨action, first.items ++ second.items⟩] := by
  obtain ⟨sort, items⟩ := first
  obtain ⟨_, items'⟩ := second
  cases hfirst
  cases hsecond
  constructor
  · cases sort <;> simp [Edit.old]
  · cases sort <;> simp [Edit.new]
  · simp +contextual [Edit.Proper]

/-- Changes of different sorts trade places. -/
theorem same_pass {first second : Edit α} (hfirst : first.action ≠ .keep)
    (hsecond : second.action ≠ .keep) (hne : first.action ≠ second.action) :
    Same [first, second] [second, first] := by
  obtain ⟨action, items⟩ := first
  obtain ⟨action', items'⟩ := second
  constructor
  · cases action <;> cases action' <;> simp_all [Edit.old]
  · cases action <;> cases action' <;> simp_all [Edit.new]
  · simp +contextual [Edit.Proper]

/-- A change trades its end for the same kept items in front of it. -/
theorem same_trade_up {current : Edit α} {moved rest : List α}
    (h : current.items = rest ++ moved) (kept : List α) :
    Same [.keep (kept ++ moved), current]
      [.keep kept, { current with items := moved ++ rest }, .keep moved] := by
  obtain ⟨action, items⟩ := current
  subst h
  constructor
  · cases action <;> simp [Edit.old, Edit.keep]
  · cases action <;> simp [Edit.new, Edit.keep]
  · simp [Edit.Proper, Edit.keep, and_comm]

/-- A change trades its beginning for the same kept items behind it. -/
theorem same_trade_down {current : Edit α} {moved rest : List α}
    (h : current.items = moved ++ rest) (kept : List α) :
    Same [current, .keep (moved ++ kept)]
      [.keep moved, { current with items := rest ++ moved }, .keep kept] := by
  obtain ⟨action, items⟩ := current
  subst h
  constructor
  · cases action <;> simp [Edit.old, Edit.keep]
  · cases action <;> simp [Edit.new, Edit.keep]
  · simp [Edit.Proper, Edit.keep, and_comm]

theorem same_keepBefore (items : List α) (script : List (Edit α)) :
    Same (.keep items :: script) (keepBefore items script) := by
  unfold keepBefore
  split
  · exact .refl _
  · rename_i edit rest
    split
    · rename_i hkeep
      obtain ⟨items', rfl⟩ := Edit.exists_keep hkeep
      exact (same_keep_append items items').within [] rest
    · exact .refl _

theorem same_keepBehind (items : List α) (before after : List (Edit α)) :
    Same (before.reverse ++ .keep items :: after) ((keepBehind items before).reverse ++ after) := by
  unfold keepBehind
  split
  · exact .refl _
  · rename_i edit rest
    split
    · rename_i hkeep
      obtain ⟨items', rfl⟩ := Edit.exists_keep hkeep
      simpa using (same_keep_append items' items).within rest.reverse after
    · simpa using Same.refl _

theorem same_keepUnlessEmpty (items : List α) (script : List (Edit α)) :
    Same (.keep items :: script) (keepUnlessEmpty items script) := by
  cases items with
  | nil => exact same_keep_nil.within [] script
  | cons item items => exact .refl _

theorem same_reverse_keepUnlessEmpty (items : List α) (before after : List (Edit α)) :
    Same (before.reverse ++ .keep items :: after)
      ((keepUnlessEmpty items before).reverse ++ after) := by
  cases items with
  | nil => exact same_keep_nil.within before.reverse after
  | cons item items => simpa [keepUnlessEmpty] using Same.refl _

/-! ### Moving a change as far as it goes -/

/-- A change moves up past kept items that it ends with. -/
theorem same_move_up {current : Edit α} {moved rest : List α} (h : current.items = rest ++ moved)
    (kept : List α) (before after : List (Edit α)) :
    Same (before.reverse ++ .keep (kept ++ moved) :: current :: after)
      ((keepUnlessEmpty kept before).reverse ++
        { current with items := moved ++ rest } :: keepBefore moved after) := by
  have htrade := (same_trade_up h kept).within before.reverse after
  have hkept := same_reverse_keepUnlessEmpty kept before
    ({ current with items := moved ++ rest } :: .keep moved :: after)
  have hmoved := (same_keepBefore moved after).within
    ((keepUnlessEmpty kept before).reverse ++ [{ current with items := moved ++ rest }]) []
  simp only [List.append_nil, List.append_assoc, List.singleton_append] at hmoved
  exact (htrade.trans hkept).trans hmoved

/-- A change moves down past kept items that it begins with. -/
theorem same_move_down {current : Edit α} {moved rest : List α} (h : current.items = moved ++ rest)
    (kept : List α) (before after : List (Edit α)) :
    Same (before.reverse ++ current :: .keep (moved ++ kept) :: after)
      ((keepBehind moved before).reverse ++
        { current with items := rest ++ moved } :: keepUnlessEmpty kept after) := by
  have htrade := (same_trade_down h kept).within before.reverse after
  have hmoved := same_keepBehind moved before
    ({ current with items := rest ++ moved } :: .keep kept :: after)
  have hkept := (same_keepUnlessEmpty kept after).within
    ((keepBehind moved before).reverse ++ [{ current with items := rest ++ moved }]) []
  simp only [List.append_nil, List.append_assoc, List.singleton_append] at hkept
  exact (htrade.trans hmoved).trans hkept

section Shift

variable [DecidableEq α]

theorem same_shiftUp (before : List (Edit α)) (current : Edit α) (after : List (Edit α))
    (h : current.action ≠ .keep) :
    Same (before.reverse ++ current :: after) (shiftUp before current after).script := by
  fun_induction shiftUp before current after with
  | case1 current after => exact .refl _
  | case2 current after edit before hkeep n hn hempty ih =>
      obtain ⟨items, rfl⟩ := Edit.exists_keep hkeep
      obtain rfl : items = [] := List.isEmpty_iff.mp hempty
      have hdrop := same_keep_nil.within before.reverse (current :: after)
      simpa using hdrop.trans (ih h)
  | case3 => exact .refl _
  | case4 current after edit before hkeep n hn moved ih =>
      obtain ⟨items, rfl⟩ := Edit.exists_keep hkeep
      have hcurrent : current.items = current.items.take (current.items.length - n) ++ moved := by
        unfold moved n
        rw [← drop_commonSuffixLength, List.take_append_drop]
      have hitems : items.take (items.length - n) ++ moved = items := List.take_append_drop _ _
      have hmove := same_move_up hcurrent (items.take (items.length - n)) before after
      rw [hitems] at hmove
      simpa using hmove.trans (ih h)
  | case5 current after edit before hkeep hsame ih =>
      have habsorb := (same_absorb hsame rfl).within before.reverse after
      simpa using habsorb.trans (ih h)
  | case6 current after edit before hkeep hother ih =>
      have hpass := (same_pass hkeep h hother).within before.reverse after
      simpa using hpass.trans (ih h)

theorem same_shiftDown (before : List (Edit α)) (current : Edit α) (after : List (Edit α))
    (h : current.action ≠ .keep) :
    Same (before.reverse ++ current :: after) (shiftDown before current after).script := by
  fun_induction shiftDown before current after with
  | case1 before current => exact .refl _
  | case2 before current edit after hkeep n hn hempty ih =>
      obtain ⟨items, rfl⟩ := Edit.exists_keep hkeep
      obtain rfl : items = [] := List.isEmpty_iff.mp hempty
      have hdrop := same_keep_nil.within (before.reverse ++ [current]) after
      simpa using hdrop.trans (by simpa using ih h)
  | case3 => exact .refl _
  | case4 before current edit after hkeep n hn moved ih =>
      obtain ⟨items, rfl⟩ := Edit.exists_keep hkeep
      have hcurrent : current.items = moved ++ current.items.drop n := by
        unfold moved n
        rw [← take_commonPrefixLength, List.take_append_drop]
      have hitems : moved ++ items.drop n = items := List.take_append_drop _ _
      have hmove := same_move_down hcurrent (items.drop n) before after
      rw [hitems] at hmove
      exact hmove.trans (ih h)
  | case5 before current edit after hkeep hsame ih =>
      have habsorb := (same_absorb rfl hsame).within before.reverse after
      exact habsorb.trans (ih h)
  | case6 before current edit after hkeep hother ih =>
      have hpass := (same_pass h hkeep (Ne.symm hother)).within before.reverse after
      simpa using hpass.trans (by simpa using ih h)

theorem action_shiftUp (before : List (Edit α)) (current : Edit α) (after : List (Edit α)) :
    (shiftUp before current after).current.action = current.action := by
  fun_induction shiftUp before current after <;> simp_all

/-! ### Moving all changes -/

theorem same_compactWith {action : Action} (h : action ≠ .keep) (visits : Nat)
    (before after : List (Edit α)) :
    Same (before.reverse ++ after) (compactWith action visits before after) := by
  fun_induction compactWith action visits before after with
  | case1 before after => exact .refl _
  | case2 visits before => simpa using Same.refl before.reverse
  | case3 visits before edit after haction up down ih =>
      have hedit : edit.action ≠ .keep := haction ▸ h
      have hup : Same (before.reverse ++ edit :: after) up.script :=
        same_shiftUp before edit after hedit
      have hdown : Same up.script down.script :=
        same_shiftDown up.before up.current up.after (by rwa [action_shiftUp])
      have hrest : Same down.script
          (compactWith action visits (down.current :: down.before) down.after) := by
        simpa [Cursor.script] using ih
      exact (hup.trans hdown).trans hrest
  | case4 visits before edit after haction ih => simpa using ih

theorem same_compact (script : List (Edit α)) : Same script (compact script) := by
  have hdelete : Same script (compactAction .delete script) :=
    same_compactWith (by decide) _ [] script
  have hinsert : Same (compactAction .delete script) (compact script) :=
    same_compactWith (by decide) _ [] _
  exact hdelete.trans hinsert

end Shift

end ResourceLanguage.Diff
