import ResourceLanguage.Diff.Edit

/-!
Moving the changes of an edit script together. A deletion or an insertion can trade places with
kept items that it repeats at its end or at its beginning; it passes changes of the other sort, and
it absorbs changes of its own sort.
-/

namespace ResourceLanguage.Diff

variable {α : Type}

/-- A script with one of its changes picked out: the steps before it, last first, the change, and
the steps after it. -/
structure Cursor (α : Type) where
  before : List (Edit α)
  current : Edit α
  after : List (Edit α)

def Cursor.script (cursor : Cursor α) : List (Edit α) :=
  cursor.before.reverse ++ cursor.current :: cursor.after

def keepBefore (items : List α) : List (Edit α) → List (Edit α)
  | [] => [.keep items]
  | edit :: rest =>
      if edit.action = .keep then .keep (items ++ edit.items) :: rest
      else .keep items :: edit :: rest

def keepBehind (items : List α) : List (Edit α) → List (Edit α)
  | [] => [.keep items]
  | edit :: rest =>
      if edit.action = .keep then .keep (edit.items ++ items) :: rest
      else .keep items :: edit :: rest

/-- A step that keeps `items` and the steps next to it; no step at all when nothing is kept. -/
def keepUnlessEmpty (items : List α) (rest : List (Edit α)) : List (Edit α) :=
  if items.isEmpty then rest else .keep items :: rest

theorem weight_keepUnlessEmpty_le (items : List α) (rest : List (Edit α)) :
    Edit.weight (keepUnlessEmpty items rest) ≤ items.length + 1 + Edit.weight rest := by
  unfold keepUnlessEmpty
  split
  · omega
  · simp [Edit.keep]

variable [DecidableEq α]

/-- Moves a change up as far as it goes, given the steps before it. -/
def shiftUp (before : List (Edit α)) (current : Edit α) (after : List (Edit α)) : Cursor α :=
  match before with
  | [] => ⟨[], current, after⟩
  | edit :: before =>
      if edit.action = .keep then
        let n := commonSuffixLength current.items edit.items
        if n = 0 then
          if edit.items.isEmpty then shiftUp before current after
          else ⟨edit :: before, current, after⟩
        else
          let moved := edit.items.drop (edit.items.length - n)
          shiftUp (keepUnlessEmpty (edit.items.take (edit.items.length - n)) before)
            { current with items := moved ++ current.items.take (current.items.length - n) }
            (keepBefore moved after)
      else if edit.action = current.action then
        shiftUp before { current with items := edit.items ++ current.items } after
      else shiftUp before current (edit :: after)
termination_by Edit.weight before
decreasing_by
  · simp
  · refine Nat.lt_of_le_of_lt (weight_keepUnlessEmpty_le _ _) ?_
    have := commonSuffixLength_le_right current.items edit.items
    simp only [List.length_take, Edit.weight_cons]
    omega
  · simp
  · simp

/-- Moves a change down as far as it goes, given the steps after it. -/
def shiftDown (before : List (Edit α)) (current : Edit α) (after : List (Edit α)) : Cursor α :=
  match after with
  | [] => ⟨before, current, []⟩
  | edit :: after =>
      if edit.action = .keep then
        let n := commonPrefixLength current.items edit.items
        if n = 0 then
          if edit.items.isEmpty then shiftDown before current after
          else ⟨before, current, edit :: after⟩
        else
          let moved := edit.items.take n
          shiftDown (keepBehind moved before)
            { current with items := current.items.drop n ++ moved }
            (keepUnlessEmpty (edit.items.drop n) after)
      else if edit.action = current.action then
        shiftDown before { current with items := current.items ++ edit.items } after
      else shiftDown (edit :: before) current after
termination_by Edit.weight after
decreasing_by
  · simp
  · refine Nat.lt_of_le_of_lt (weight_keepUnlessEmpty_le _ _) ?_
    have := commonPrefixLength_le_right current.items edit.items
    simp only [List.length_drop, Edit.weight_cons]
    omega
  · simp
  · simp

/-- Visits the steps of a script in order and moves every change with the given action up and
then down. At most `visits` steps are visited. -/
def compactWith (action : Action) : (visits : Nat) → (before after : List (Edit α)) →
    List (Edit α)
  | 0, before, after => before.reverse ++ after
  | _ + 1, before, [] => before.reverse
  | visits + 1, before, edit :: after =>
      if edit.action = action then
        let up := shiftUp before edit after
        let down := shiftDown up.before up.current up.after
        compactWith action visits (down.current :: down.before) down.after
      else compactWith action visits (edit :: before) after

/-- Moves all changes of one sort. A change that absorbs none of its sort ends up no higher than
it was, so that the steps visited between two absorptions are no more than the weight of the
script. -/
def compactAction (action : Action) (script : List (Edit α)) : List (Edit α) :=
  compactWith action ((script.length + 1) * (Edit.weight script + 1)) [] script

/-- Moves all deletions, then all insertions. -/
def compact (script : List (Edit α)) : List (Edit α) :=
  compactAction .insert (compactAction .delete script)

end ResourceLanguage.Diff
