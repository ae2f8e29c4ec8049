/-!
Edit scripts between two lists. A script can be read for either list; whatever rearranges a
script has to keep both readings.
-/

namespace ResourceLanguage.Diff

/-- What a step of an edit script does with its items. -/
inductive Action where
  | keep
  | delete
  | insert
  deriving DecidableEq, Repr

structure Edit (α : Type) where
  action : Action
  items : List α
  deriving DecidableEq, Repr

namespace Edit

variable {α : Type}

def keep (items : List α) : Edit α := ⟨.keep, items⟩

def delete (items : List α) : Edit α := ⟨.delete, items⟩

def insert (items : List α) : Edit α := ⟨.insert, items⟩

/-- What the step reads of the old list. -/
def old (edit : Edit α) : List α := if edit.action = .insert then [] else edit.items

/-- What the step writes to the new list. -/
def new (edit : Edit α) : List α := if edit.action = .delete then [] else edit.items

/-- The list that a script starts from. -/
def oldOf (script : List (Edit α)) : List α := script.flatMap old

/-- The list that a script ends with. -/
def newOf (script : List (Edit α)) : List α := script.flatMap new

/-- A number that falls whenever a step shrinks or goes away. -/
def weight : List (Edit α) → Nat
  | [] => 0
  | edit :: script => edit.items.length + 1 + weight script

@[simp] theorem weight_cons (edit : Edit α) (script : List (Edit α)) :
    weight (edit :: script) = edit.items.length + 1 + weight script := rfl

end Edit

def commonPrefixLength {α : Type} [DecidableEq α] : List α → List α → Nat
  | a :: as, b :: bs => if a = b then commonPrefixLength as bs + 1 else 0
  | _, _ => 0

def commonSuffixLength {α : Type} [DecidableEq α] (as bs : List α) : Nat :=
  commonPrefixLength as.reverse bs.reverse

theorem commonPrefixLength_le_right {α : Type} [DecidableEq α] (as bs : List α) :
    commonPrefixLength as bs ≤ bs.length := by
  fun_induction commonPrefixLength as bs <;> simp_all

theorem commonSuffixLength_le_right {α : Type} [DecidableEq α] (as bs : List α) :
    commonSuffixLength as bs ≤ bs.length := by
  simpa [commonSuffixLength] using commonPrefixLength_le_right as.reverse bs.reverse

end ResourceLanguage.Diff
