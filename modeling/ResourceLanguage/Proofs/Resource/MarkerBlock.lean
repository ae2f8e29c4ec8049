import ResourceLanguage.Proofs.Resource.Restored

/-!
The block of lines that one removal of the marker takes away, and how often the marker has to be
removed. A removal ends at the first closing tag, so a line with the marker behind it stays for the
next one; every removal takes away a line with the marker, which bounds their number.
-/

namespace ResourceLanguage

/-! ### The removed block -/

/-- The block of lines that the marker begins: it stands after lines without the marker, its first
line has the marker, and it reaches through the first closing tag at or after that line, or to the
end of the lines when there is none. -/
structure MarkerBlock (lines header block tail : List String) : Prop where
  lines_eq : lines = header ++ block ++ tail
  header_unmarked : ∀ line ∈ header, hasMarker line = false
  begins : ∃ marked rest, block = marked :: rest ∧ hasMarker marked = true
  ends :
    (∃ inner closing, block = inner ++ [closing] ∧ hasClosingTag closing = true ∧
      ∀ line ∈ inner, hasClosingTag line = false) ∨
    (tail = [] ∧ ∀ line ∈ block, hasClosingTag line = false)

namespace MarkerBlock

variable {lines header block tail : List String}

theorem any_hasMarker (h : MarkerBlock lines header block tail) : lines.any hasMarker = true := by
  obtain ⟨marked, rest, hblock, hmarked⟩ := h.begins
  rw [List.any_eq_true]
  refine ⟨marked, ?_, hmarked⟩
  simp [h.lines_eq, hblock]

/-- Skipping to the closing tag, and over it, leads behind the block. -/
theorem drop_dropWhile (h : MarkerBlock lines header block tail) :
    ((block ++ tail).dropWhile fun line => !hasClosingTag line).drop 1 = tail := by
  rcases h.ends with ⟨inner, closing, rfl, hclosing, hinner⟩ | ⟨rfl, hblock⟩
  · have hskip : ∀ line ∈ inner, (!hasClosingTag line) = true := by simpa using hinner
    rw [List.append_assoc, List.dropWhile_append_of_pos hskip, List.singleton_append,
      List.dropWhile_cons_of_neg (by simp [hclosing]), List.drop_one, List.tail_cons]
  · have hskip : ∀ line ∈ block, (!hasClosingTag line) = true := by simpa using hblock
    rw [List.append_nil, List.dropWhile_eq_nil_iff.mpr hskip, List.drop_nil]

/-- The block is removed, and all other lines are kept. -/
theorem stripMarkerLines_eq (h : MarkerBlock lines header block tail) :
    stripMarkerLines lines = header ++ tail := by
  have hdrop := h.drop_dropWhile
  obtain ⟨marked, rest, rfl, hmarked⟩ := h.begins
  rw [h.lines_eq, List.append_assoc, List.cons_append,
    stripMarkerLines_append h.header_unmarked hmarked, ← List.cons_append, hdrop]

theorem any_stripMarkerLines (h : MarkerBlock lines header block tail) :
    (stripMarkerLines lines).any hasMarker = tail.any hasMarker := by
  have hheader : header.any hasMarker = false := by simpa using h.header_unmarked
  rw [h.stripMarkerLines_eq, List.any_append, hheader, Bool.false_or]

end MarkerBlock

/-- Lines with the marker hold a block, whether or not it is closed. -/
theorem exists_markerBlock {lines : List String} (h : lines.any hasMarker = true) :
    ∃ header block tail, MarkerBlock lines header block tail := by
  obtain ⟨header, marked, rest, rfl, hheader, hmarked⟩ := exists_eq_append_marked h
  cases hclosed : (marked :: rest).find? hasClosingTag with
  | none =>
      refine ⟨header, marked :: rest, [], by simp, hheader, ⟨marked, rest, rfl, hmarked⟩, ?_⟩
      exact .inr ⟨rfl, by simpa using hclosed⟩
  | some closing =>
      obtain ⟨hclosing, inner, tail, hsplit, hinner⟩ := List.find?_eq_some_iff_append.mp hclosed
      refine ⟨header, inner ++ [closing], tail, by simp [hsplit], hheader, ?_, ?_⟩
      · -- The closing tag may stand on the line with the marker itself.
        cases inner with
        | nil =>
            obtain ⟨rfl, -⟩ := List.cons.inj hsplit
            exact ⟨marked, [], rfl, hmarked⟩
        | cons first inner =>
            obtain ⟨rfl, -⟩ := List.cons.inj hsplit
            exact ⟨marked, inner ++ [closing], rfl, hmarked⟩
      · exact .inl ⟨inner, closing, rfl, hclosing, by simpa using hinner⟩

theorem stripMarkerLines_eq_self_iff {lines : List String} :
    stripMarkerLines lines = lines ↔ lines.any hasMarker = false := by
  refine ⟨fun heq => ?_, stripMarkerLines_of_unmarked⟩
  rw [← Bool.not_eq_true]
  intro hmarked
  have hlt := countP_stripMarkerLines_lt hmarked
  rw [heq] at hlt
  exact absurd hlt (Nat.lt_irrefl _)

/-! ### Repeated removals -/

theorem iterate_stripMarkerLines_of_unmarked {lines : List String}
    (h : lines.any hasMarker = false) (n : ℕ) : stripMarkerLines^[n] lines = lines :=
  Function.iterate_fixed (stripMarkerLines_of_unmarked h) n

/-- The marker is gone after a number of removals, and not before. -/
theorem exists_removals (lines : List String) :
    ∃ n ≤ lines.countP hasMarker,
      ∀ m, (stripMarkerLines^[m] lines).any hasMarker = false ↔ n ≤ m := by
  -- Each removal takes away a line with the marker, so the induction is on their number.
  induction hcount : lines.countP hasMarker using Nat.strongRecOn generalizing lines with
  | ind count ih =>
      cases hmarked : lines.any hasMarker with
      | false =>
          refine ⟨0, Nat.zero_le _, fun m => ?_⟩
          rw [iterate_stripMarkerLines_of_unmarked hmarked]
          simp [hmarked]
      | true =>
          have hlt := countP_stripMarkerLines_lt hmarked
          obtain ⟨n, hn, hgone⟩ := ih _ (hcount ▸ hlt) (stripMarkerLines lines) rfl
          refine ⟨n + 1, by omega, fun m => ?_⟩
          cases m with
          | zero => simp [hmarked]
          | succ m => rw [Function.iterate_succ_apply, hgone, Nat.add_le_add_iff_right]

/-- Removing the marker takes away one block of lines and keeps all others in order: the block from
the first line with the marker through the first closing tag at or after it, or to the end. Lines
without the marker stay as they are, and only they do. Every removal lowers the number of lines with
the marker, so after at most as many removals the marker is gone for good, and after a single one
exactly when no line behind the removed block has it. -/
theorem stripMarkerLines_removes_block (lines : List String) :
    (lines.any hasMarker = true ↔ ∃ header block tail, MarkerBlock lines header block tail) ∧
    (∀ header block tail, MarkerBlock lines header block tail →
      stripMarkerLines lines = header ++ tail ∧
      (stripMarkerLines lines).countP hasMarker < lines.countP hasMarker ∧
      ((stripMarkerLines lines).any hasMarker = false ↔ tail.any hasMarker = false)) ∧
    (stripMarkerLines lines = lines ↔ lines.any hasMarker = false) ∧
    ∃ n ≤ lines.countP hasMarker,
      (∀ m, (stripMarkerLines^[m] lines).any hasMarker = false ↔ n ≤ m) ∧
      ∀ m, n ≤ m → stripMarkerLines^[m] lines = stripMarkerLines^[n] lines := by
  refine ⟨⟨exists_markerBlock, ?_⟩, ?_, stripMarkerLines_eq_self_iff, ?_⟩
  · rintro ⟨header, block, tail, h⟩
    exact h.any_hasMarker
  · intro header block tail h
    refine ⟨h.stripMarkerLines_eq, countP_stripMarkerLines_lt h.any_hasMarker, ?_⟩
    rw [h.any_stripMarkerLines]
  · obtain ⟨n, hn, hgone⟩ := exists_removals lines
    refine ⟨n, hn, hgone, fun m hm => ?_⟩
    obtain ⟨k, rfl⟩ := Nat.exists_eq_add_of_le hm
    rw [Nat.add_comm, Function.iterate_add_apply,
      iterate_stripMarkerLines_of_unmarked ((hgone n).mpr (Nat.le_refl n))]

/-- A closing tag before the block, the marker twice within it, and once more on a line that closes
its own setting. -/
theorem stripMarkerLines_removes_block_twice :
    let lines := ["</metadata>", "$this.Language", "$this.Language", "</metadata>", "a",
      "$this.Language </metadata>", "b"]
    MarkerBlock lines ["</metadata>"] ["$this.Language", "$this.Language", "</metadata>"]
        ["a", "$this.Language </metadata>", "b"] ∧
      stripMarkerLines lines = ["</metadata>", "a", "$this.Language </metadata>", "b"] ∧
      (stripMarkerLines lines).any hasMarker = true ∧
      ∃ n ≤ 3, stripMarkerLines^[n] lines = ["</metadata>", "a", "b"] := by
  intro lines
  have hblock : MarkerBlock lines ["</metadata>"]
      ["$this.Language", "$this.Language", "</metadata>"]
      ["a", "$this.Language </metadata>", "b"] :=
    { lines_eq := rfl
      header_unmarked := by decide
      begins := ⟨"$this.Language", ["$this.Language", "</metadata>"], rfl, by decide⟩
      ends :=
        .inl ⟨["$this.Language", "$this.Language"], "</metadata>", rfl, by decide, by decide⟩ }
  obtain ⟨-, hremoved, -, n, hn, -, hstays⟩ := stripMarkerLines_removes_block lines
  refine ⟨hblock, (hremoved _ _ _ hblock).1, by decide, n, hn.trans (by decide), ?_⟩
  rw [← hstays 3 (hn.trans (by decide))]
  decide

end ResourceLanguage
