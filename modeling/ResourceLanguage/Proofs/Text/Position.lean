import Mathlib.Data.List.Basic
import ResourceLanguage.Location

/-!
Offsets between the characters of a text. Pieces of a text are cut out by their sizes, and the line
and column of an offset lead back to it.
-/

namespace ResourceLanguage.Text

@[simp] theorem byteSize_append (cs ds : List Char) :
    byteSize (cs ++ ds) = byteSize cs + byteSize ds := by
  induction cs with
  | nil => simp [byteSize]
  | cons c cs ih => rw [List.cons_append, byteSize, byteSize, ih, Nat.add_assoc]

theorem byteSize_pos {cs : List Char} (h : cs ≠ []) : 0 < byteSize cs := by
  cases cs with
  | nil => exact absurd rfl h
  | cons c cs => exact Nat.add_pos_left c.utf8Size_pos _

theorem byteSize_replicate_blank (n : Nat) : byteSize (List.replicate n ' ') = n := by
  induction n with
  | zero => rfl
  | succ n ih =>
      rw [List.replicate_succ, byteSize, ih]
      exact Nat.add_comm _ _

theorem takeBytes_append (cs ds : List Char) : takeBytes (byteSize cs) (cs ++ ds) = cs := by
  induction cs with
  | nil => rw [byteSize, takeBytes]
  | cons c cs ih =>
      have hsize : byteSize (c :: cs) ≠ 0 := Nat.ne_of_gt (byteSize_pos (List.cons_ne_nil c cs))
      rw [List.cons_append, takeBytes]
      · rw [byteSize, Nat.add_sub_cancel_left, ih]
      · exact hsize

theorem dropBytes_append (cs ds : List Char) : dropBytes (byteSize cs) (cs ++ ds) = ds := by
  induction cs with
  | nil => rw [byteSize, dropBytes, List.nil_append]
  | cons c cs ih =>
      have hsize : byteSize (c :: cs) ≠ 0 := Nat.ne_of_gt (byteSize_pos (List.cons_ne_nil c cs))
      rw [List.cons_append, dropBytes]
      · rw [byteSize, Nat.add_sub_cancel_left, ih]
      · exact hsize

/-- The piece of a text between two others. -/
theorem slice_append (front piece back : List Char) :
    slice (front ++ (piece ++ back)) ⟨byteSize front, byteSize front + byteSize piece⟩ = piece := by
  rw [slice, dropBytes_append, Nat.add_sub_cancel_left, takeBytes_append]

theorem flatten_positionLines (cs : List Char) : (positionLines cs).flatten = cs := by
  induction cs with
  | nil => rfl
  | cons c cs ih =>
      rw [positionLines]
      split
      · rename_i hc
        rw [List.flatten_cons, ih, hc]
        rfl
      · cases hlines : positionLines cs with
        | nil =>
            rw [hlines] at ih
            rw [← ih]
            rfl
        | cons line lines =>
            rw [hlines, List.flatten_cons] at ih
            rw [← ih]
            rfl

theorem positionLines_ne_nil (cs : List Char) : positionLines cs ≠ [] := by
  cases cs with
  | nil => exact List.cons_ne_nil _ _
  | cons c cs =>
      rw [positionLines]
      split
      · exact List.cons_ne_nil _ _
      · split <;> exact List.cons_ne_nil _ _

/-- Of two ways to cut a text, the smaller front is a part of the other. -/
theorem exists_eq_append_of_byteSize_le {cs ds front back : List Char}
    (h : cs ++ ds = front ++ back) (hle : byteSize cs ≤ byteSize front) :
    ∃ rest, front = cs ++ rest ∧ ds = rest ++ back := by
  rcases List.append_eq_append_iff.mp h with hfront | ⟨rest, rfl, rfl⟩
  · exact hfront
  · rw [byteSize_append] at hle
    have hrest : rest = [] := by
      by_contra hne
      have := byteSize_pos hne
      omega
    subst hrest
    exact ⟨[], by simp, by simp⟩

/-- The line at an offset inside it. The last line holds the offset at its end too. -/
theorem lineAt_append (before : List (List Char)) {line : List Char} (after : List (List Char))
    {offset : Nat} (h : offset < byteSize line ∨ after = []) :
    lineAt (before ++ line :: after) (byteSize before.flatten + offset) =
      (before.length, line, offset) := by
  induction before with
  | nil =>
      rw [List.nil_append, List.flatten_nil, byteSize, Nat.zero_add]
      cases after with
      | nil => rfl
      | cons next after =>
          rw [lineAt, if_pos (h.resolve_right (List.cons_ne_nil next after))]
          · rfl
          · exact List.cons_ne_nil next after
  | cons first before ih =>
      have hle : ¬byteSize (first :: before).flatten + offset < byteSize first := by
        rw [List.flatten_cons, byteSize_append]
        omega
      have hsub : byteSize (first :: before).flatten + offset - byteSize first =
          byteSize before.flatten + offset := by
        rw [List.flatten_cons, byteSize_append]
        omega
      rw [List.cons_append, lineAt, if_neg hle, hsub, ih]
      · rfl
      · simp

/-- A line without a line feed is the last. -/
theorem eq_nil_of_positionLines {cs line : List Char} {before after : List (List Char)}
    (h : positionLines cs = before ++ line :: after) (hfeed : '\n' ∉ line) : after = [] := by
  induction cs generalizing before line with
  | nil =>
      cases before with
      | nil => exact (List.cons.inj h).2.symm
      | cons first before => simp [positionLines] at h
  | cons c cs ih =>
      rw [positionLines] at h
      split at h
      · cases before with
        | nil =>
            obtain ⟨rfl, -⟩ := List.cons.inj h
            exact absurd (List.mem_singleton_self _) hfeed
        | cons first before => exact ih (List.cons.inj h).2 hfeed
      · split at h
        · cases before with
          | nil => exact (List.cons.inj h).2.symm
          | cons first before => simp at h
        · rename_i first lines hlines
          cases before with
          | nil =>
              obtain ⟨rfl, rfl⟩ := List.cons.inj h
              exact @ih first [] hlines fun hmem => hfeed (List.mem_cons_of_mem c hmem)
          | cons other before =>
              obtain ⟨-, rfl⟩ := List.cons.inj h
              exact @ih line (first :: before) hlines hfeed

theorem getElem?_lineAt {lines : List (List Char)} (hne : lines ≠ []) (offset : Nat) :
    lines[(lineAt lines offset).1]? = some (lineAt lines offset).2.1 := by
  induction lines generalizing offset with
  | nil => exact absurd rfl hne
  | cons line lines ih =>
      cases lines with
      | nil => rfl
      | cons next lines =>
          rw [lineAt]
          · split
            · rfl
            · exact ih (List.cons_ne_nil next lines) _
          · exact List.cons_ne_nil next lines

/-- Line and column determine the place in a text. -/
theorem ofOffset_eq_of_position {file : String} {cs : List Char} {offset offset' : Nat}
    (hline : (Location.ofOffset file cs offset).line = (Location.ofOffset file cs offset').line)
    (hcol : (Location.ofOffset file cs offset).col = (Location.ofOffset file cs offset').col) :
    Location.ofOffset file cs offset = Location.ofOffset file cs offset' := by
  have hfound := getElem?_lineAt (positionLines_ne_nil cs) offset
  have hfound' := getElem?_lineAt (positionLines_ne_nil cs) offset'
  have hindex : (lineAt (positionLines cs) offset).1 = (lineAt (positionLines cs) offset').1 :=
    Nat.succ.inj hline
  rw [hindex, hfound', Option.some_inj] at hfound
  have hsource : (Location.ofOffset file cs offset).sourceLine =
      (Location.ofOffset file cs offset').sourceLine :=
    congrArg (fun line => String.ofList (trimLineBreaks line)) hfound.symm
  calc
    Location.ofOffset file cs offset = ⟨file, (Location.ofOffset file cs offset).line,
        (Location.ofOffset file cs offset).col,
        (Location.ofOffset file cs offset).sourceLine⟩ := rfl
    _ = Location.ofOffset file cs offset' := by rw [hline, hcol, hsource]; rfl

/-- Where lines are cut in two, one of them is. The cut is at the end of a line only if that is the
last one. -/
theorem exists_cut_line {lines : List (List Char)} (hne : lines ≠ []) {front back : List Char}
    (h : lines.flatten = front ++ back) :
    ∃ before p q after, lines = before ++ (p ++ q) :: after ∧ front = before.flatten ++ p ∧
      (byteSize p < byteSize (p ++ q) ∨ after = []) := by
  induction lines generalizing front with
  | nil => exact absurd rfl hne
  | cons line lines ih =>
      rw [List.flatten_cons] at h
      by_cases hlast : lines = []
      · subst hlast
        rw [List.flatten_nil, List.append_nil] at h
        exact ⟨[], front, back, [], by rw [h]; rfl, rfl, .inr rfl⟩
      · by_cases hlt : byteSize front < byteSize line
        · obtain ⟨rest, rfl, -⟩ := exists_eq_append_of_byteSize_le h.symm (Nat.le_of_lt hlt)
          exact ⟨[], front, rest, lines, rfl, rfl, .inl hlt⟩
        · obtain ⟨rest, rfl, hrest⟩ := exists_eq_append_of_byteSize_le h (Nat.le_of_not_lt hlt)
          obtain ⟨before, p, q, after, rfl, rfl, hcut⟩ := ih hlast hrest
          exact ⟨line :: before, p, q, after, rfl, by rw [List.flatten_cons, List.append_assoc],
            hcut⟩

section Cut

variable {cs p q : List Char} {before after : List (List Char)}

theorem ofOffset_of_cut (file : String) (h : positionLines cs = before ++ (p ++ q) :: after)
    (hcut : byteSize p < byteSize (p ++ q) ∨ after = []) :
    Location.ofOffset file cs (byteSize before.flatten + byteSize p) =
      ⟨file, before.length + 1, p.length + 1, String.ofList (trimLineBreaks (p ++ q))⟩ := by
  have hline := lineAt_append before after hcut
  rw [← h] at hline
  simp only [Location.ofOffset, hline, takeBytes_append]

theorem offsetOf?_of_cut (h : positionLines cs = before ++ (p ++ q) :: after) :
    offsetOf? cs (before.length + 1) (p.length + 1) =
      some (byteSize before.flatten + byteSize p) := by
  simp [offsetOf?, h]

end Cut

/-- The line and column of an offset between two characters lead back to the offset. -/
theorem offsetOf?_ofOffset (file : String) (front back : List Char) :
    let location := Location.ofOffset file (front ++ back) (byteSize front)
    offsetOf? (front ++ back) location.line location.col = some (byteSize front) := by
  obtain ⟨before, p, q, after, hlines, hfront, hcut⟩ :=
    exists_cut_line (positionLines_ne_nil (front ++ back)) (flatten_positionLines (front ++ back))
  intro location
  have hlocation := ofOffset_of_cut file hlines hcut
  rw [← byteSize_append, ← hfront] at hlocation
  rw [show location = _ from hlocation, hfront, byteSize_append]
  rw [hfront] at hlines
  exact offsetOf?_of_cut hlines

end ResourceLanguage.Text
