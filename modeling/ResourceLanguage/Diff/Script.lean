import ResourceLanguage.Diff.Edit

/-!
A shortest edit script between two lists, found by dividing both lists at the middle of a
shortest path through the edit graph.

The search runs from both ends at once. On the diagonal `k` of the graph, where `k` is the
difference of the two positions, it keeps the furthest position in the old list that can be
reached with `d` steps off the diagonals.
-/

namespace ResourceLanguage.Diff

variable {α : Type} [DecidableEq α]

/-- The furthest positions, by diagonal. -/
structure Frontier where
  offset : Nat
  reached : Array Nat

namespace Frontier

/-- Room for the diagonals up to `size` on either side. -/
def empty (size : Nat) : Frontier := { offset := size, reached := Array.replicate (2 * size + 1) 0 }

def get (frontier : Frontier) (k : Int) : Nat :=
  frontier.reached.getD (k + frontier.offset).toNat 0

def set (frontier : Frontier) (k : Int) (x : Nat) : Frontier :=
  { frontier with reached := frontier.reached.setIfInBounds (k + frontier.offset).toNat x }

/-- Where a path with `d` steps enters the diagonal `k`: it comes from the neighbour that reaches
further. -/
def entry (frontier : Frontier) (d k : Int) : Nat :=
  if k = -d || (k != d && frontier.get (k - 1) < frontier.get (k + 1)) then frontier.get (k + 1)
  else frontier.get (k - 1) + 1

end Frontier

/-- The diagonals that paths with `d` steps end on, from the highest down. -/
def diagonals (d : Nat) : List Int := (List.range (d + 1)).map fun (i : Nat) => (d : Int) - 2 * i

/-- How far a path can follow the diagonal from the positions `x` and `y`. -/
def slide (as bs : List α) (x : Nat) (y : Int) : Nat :=
  if 0 ≤ y then commonPrefixLength (as.drop x) (bs.drop y.toNat) else 0

/-- Extends every path by one step. `meets k x` says whether a path that ends on the diagonal `k`
at position `x` meets the search from the other end. The result is the new frontier and, if two
paths meet, where the last stretch along a diagonal begins and ends in the old list. -/
def sweep (as bs : List α) (meets : Int → Nat → Bool) (d : Int) (frontier : Frontier) :
    List Int → Frontier × Option (Int × Nat × Nat)
  | [] => (frontier, none)
  | k :: ks =>
      let x := frontier.entry d k
      let stop := x + slide as bs x (x - k)
      let frontier := frontier.set k stop
      if meets k stop then (frontier, some (k, x, stop))
      else sweep as bs meets d frontier ks

/-- The positions in the two lists at which the search from both ends meets, for paths of at most
`fuel` more steps from either end after `d` steps. -/
def meeting? (as bs : List α) (forward backward : Frontier) (d : Nat) :
    (fuel : Nat) → Option (Nat × Nat)
  | 0 => none
  | fuel + 1 =>
      let n := as.length
      let m := bs.length
      let delta : Int := (n : Int) - m
      let isOdd := delta % 2 != 0
      let meetsBackward := fun (k : Int) (x : Nat) =>
        isOdd && (k - delta).natAbs + 1 ≤ d && n ≤ x + backward.get (delta - k)
      match sweep as bs meetsBackward d forward (diagonals d) with
      | (_, some (k, x, _)) => some (x, (x - k).toNat)
      | (forward, none) =>
          let meetsForward := fun (k : Int) (x : Nat) =>
            !isOdd && (k - delta).natAbs ≤ d && n ≤ x + forward.get (delta - k)
          match sweep as.reverse bs.reverse meetsForward d backward (diagonals d) with
          | (_, some (k, _, x)) => some (n - x, m - (x - k).toNat)
          | (backward, none) => meeting? as bs forward backward (d + 1) fuel

def division? (as bs : List α) : Option (Nat × Nat) :=
  let size := (as.length + bs.length + 1) / 2 + 1
  meeting? as bs (.empty (size + 1)) (.empty (size + 1)) 0 size

/-- The script that deletes one list and inserts the other. -/
def replacement (as bs : List α) : List (Edit α) :=
  (if as.isEmpty then [] else [Edit.delete as]) ++ (if bs.isEmpty then [] else [Edit.insert bs])

/-- The script that keeps a list, no step at all when it is empty. -/
def kept (items : List α) : List (Edit α) := if items.isEmpty then [] else [Edit.keep items]

/-- A script from `as` to `bs`. What the lists have in common at their ends is kept; what is left
is divided, as long as the division makes both halves smaller. -/
def script (as bs : List α) : List (Edit α) :=
  let front := commonPrefixLength as bs
  let as' := as.drop front
  let bs' := bs.drop front
  let back := commonSuffixLength as' bs'
  let as'' := as'.take (as'.length - back)
  let bs'' := bs'.take (bs'.length - back)
  let middle :=
    if as''.isEmpty || bs''.isEmpty then replacement as'' bs''
    else
      match division? as'' bs'' with
      | none => replacement as'' bs''
      | some (x, y) =>
          if _h : 0 < x + y ∧ x ≤ as''.length ∧ y ≤ bs''.length ∧
              x + y < as''.length + bs''.length then
            script (as''.take x) (bs''.take y) ++ script (as''.drop x) (bs''.drop y)
          else replacement as'' bs''
  kept (as.take front) ++ middle ++ kept (as'.drop (as'.length - back))
termination_by as.length + bs.length
decreasing_by
  all_goals simp_wf
  all_goals grind

end ResourceLanguage.Diff
