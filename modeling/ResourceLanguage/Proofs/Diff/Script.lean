import ResourceLanguage.Diff.Script

/-!
What an edit script says of its two lists. Whatever division the search finds, the script between
two lists starts from the one and ends with the other, and it has no empty changes.
-/

namespace ResourceLanguage.Diff

variable {α : Type}

namespace Edit

@[simp] theorem old_keep (items : List α) : (keep items).old = items := rfl
@[simp] theorem new_keep (items : List α) : (keep items).new = items := rfl
@[simp] theorem old_delete (items : List α) : (delete items).old = items := rfl
@[simp] theorem new_delete (items : List α) : (delete items).new = [] := rfl
@[simp] theorem old_insert (items : List α) : (insert items).old = [] := rfl
@[simp] theorem new_insert (items : List α) : (insert items).new = items := rfl

@[simp] theorem oldOf_nil : oldOf ([] : List (Edit α)) = [] := rfl
@[simp] theorem newOf_nil : newOf ([] : List (Edit α)) = [] := rfl

@[simp] theorem oldOf_cons (edit : Edit α) (script : List (Edit α)) :
    oldOf (edit :: script) = edit.old ++ oldOf script := rfl

@[simp] theorem newOf_cons (edit : Edit α) (script : List (Edit α)) :
    newOf (edit :: script) = edit.new ++ newOf script := rfl

@[simp] theorem oldOf_append (script script' : List (Edit α)) :
    oldOf (script ++ script') = oldOf script ++ oldOf script' :=
  List.flatMap_append

@[simp] theorem newOf_append (script script' : List (Edit α)) :
    newOf (script ++ script') = newOf script ++ newOf script' :=
  List.flatMap_append

/-- Nothing that is deleted or inserted is empty. -/
def Proper (script : List (Edit α)) : Prop :=
  ∀ edit ∈ script, edit.action ≠ .keep → edit.items ≠ []

theorem proper_append {script script' : List (Edit α)} :
    Proper (script ++ script') ↔ Proper script ∧ Proper script' :=
  List.forall_mem_append

end Edit

/-- A script that starts from one list and ends with another, without empty changes. -/
structure Turns (as bs : List α) (script : List (Edit α)) : Prop where
  old : Edit.oldOf script = as
  new : Edit.newOf script = bs
  proper : Edit.Proper script

theorem Turns.append {as bs as' bs' : List α} {script script' : List (Edit α)}
    (h : Turns as bs script) (h' : Turns as' bs' script') :
    Turns (as ++ as') (bs ++ bs') (script ++ script') where
  old := by rw [Edit.oldOf_append, h.old, h'.old]
  new := by rw [Edit.newOf_append, h.new, h'.new]
  proper := Edit.proper_append.mpr ⟨h.proper, h'.proper⟩

theorem turns_nil : Turns ([] : List α) [] [] := ⟨rfl, rfl, by simp [Edit.Proper]⟩

theorem turns_kept (items : List α) : Turns items items (kept items) := by
  cases items with
  | nil => exact turns_nil
  | cons item items =>
      exact ⟨by simp [kept], by simp [kept], by simp [kept, Edit.Proper, Edit.keep]⟩

theorem turns_replacement (as bs : List α) : Turns as bs (replacement as bs) := by
  have hdelete : Turns as [] (if as.isEmpty then [] else [Edit.delete as]) := by
    cases as with
    | nil => exact turns_nil
    | cons a as => exact ⟨by simp, by simp, by simp [Edit.Proper, Edit.delete]⟩
  have hinsert : Turns [] bs (if bs.isEmpty then [] else [Edit.insert bs]) := by
    cases bs with
    | nil => exact turns_nil
    | cons b bs => exact ⟨by simp, by simp, by simp [Edit.Proper, Edit.insert]⟩
  simpa [replacement] using hdelete.append hinsert

variable [DecidableEq α]

theorem take_commonPrefixLength (as bs : List α) :
    as.take (commonPrefixLength as bs) = bs.take (commonPrefixLength as bs) := by
  fun_induction commonPrefixLength as bs <;> simp_all

theorem drop_commonSuffixLength (as bs : List α) :
    as.drop (as.length - commonSuffixLength as bs) =
      bs.drop (bs.length - commonSuffixLength as bs) := by
  have h := congrArg List.reverse (take_commonPrefixLength as.reverse bs.reverse)
  simpa [List.take_reverse, commonSuffixLength] using h

theorem turns_script (as bs : List α) : Turns as bs (script as bs) := by
  fun_induction script as bs with
  | case1 as bs front as' bs' back as'' bs'' middle ihtake ihdrop =>
      have hmiddle : Turns as'' bs'' middle := by
        unfold middle
        split
        · exact turns_replacement as'' bs''
        · rename_i hne
          split
          · exact turns_replacement as'' bs''
          · rename_i x y hdivision
            split
            · rename_i hxy
              have hparts := (ihtake hne x y hxy).append (ihdrop x y hxy)
              rwa [List.take_append_drop, List.take_append_drop] at hparts
            · exact turns_replacement as'' bs''
      have hall := ((turns_kept (as.take front)).append hmiddle).append
        (turns_kept (as'.drop (as'.length - back)))
      have has : as.take front ++ as'' ++ as'.drop (as'.length - back) = as := by
        rw [List.append_assoc, List.take_append_drop, List.take_append_drop]
      -- The ends are common ones, so they can be read in the new list as well.
      have hbs : as.take front ++ bs'' ++ as'.drop (as'.length - back) = bs := by
        rw [List.append_assoc, drop_commonSuffixLength, List.take_append_drop,
          take_commonPrefixLength, List.take_append_drop]
      rwa [has, hbs] at hall

end ResourceLanguage.Diff
