import ResourceLanguage.Proofs.Text.Bytes

/-!
Lines by the offsets at which they begin. Main statement: an offset between two characters and its
line and column determine each other.
-/

namespace ResourceLanguage.Text

/-! ### Where lines begin -/

/-- The offsets behind the line feeds of a text that stands at `offset`. -/
def startsFrom (offset : Nat) : List Char → List Nat
  | [] => []
  | c :: cs =>
      if c = '\n' then (offset + c.utf8Size) :: startsFrom (offset + c.utf8Size) cs
      else startsFrom (offset + c.utf8Size) cs

/-- The offsets at which the lines of a text begin: that of the text itself, and the offset behind
every line feed. -/
def lineStarts (cs : List Char) : List Nat := 0 :: startsFrom 0 cs

/-- The text of a line with its line feed: everything up to the next line, or up to the end. -/
def lineText? (cs : List Char) (index : Nat) : Option (List Char) :=
  (lineStarts cs)[index]?.map fun start =>
    slice cs ⟨start, (lineStarts cs)[index + 1]?.getD (byteSize cs)⟩

theorem getElem?_startsFrom (offset : Nat) (cs : List Char) (index : Nat) :
    (offset :: startsFrom offset cs)[index]? = (positionLines cs)[index]?.map fun _ =>
      offset + byteSize ((positionLines cs).take index).flatten := by
  induction cs generalizing offset index with
  | nil => cases index <;> rfl
  | cons c cs ih =>
      cases index with
      | zero =>
          obtain ⟨line, lines, hlines⟩ :=
            List.exists_cons_of_ne_nil (positionLines_ne_nil (c :: cs))
          rw [hlines]
          rfl
      | succ index =>
          rw [List.getElem?_cons_succ, startsFrom, positionLines]
          split
          · rw [ih, List.getElem?_cons_succ, List.take_succ_cons, List.flatten_cons,
              byteSize_append, ← Nat.add_assoc]
            rename_i hc
            rw [hc]
            rfl
          · have hrest := ih (offset + c.utf8Size) (index + 1)
            obtain ⟨line, lines, hlines⟩ := List.exists_cons_of_ne_nil (positionLines_ne_nil cs)
            rw [List.getElem?_cons_succ] at hrest
            rw [hrest, hlines]
            simp only [List.getElem?_cons_succ, List.take_succ_cons, List.flatten_cons,
              List.cons_append, byteSize, Nat.add_assoc]

/-- A line begins behind all that stands on the lines before it. -/
theorem getElem?_lineStarts (cs : List Char) (index : Nat) :
    (lineStarts cs)[index]? = (positionLines cs)[index]?.map fun _ =>
      byteSize ((positionLines cs).take index).flatten := by
  rw [lineStarts, getElem?_startsFrom]
  simp only [Nat.zero_add]

theorem length_lineStarts (cs : List Char) :
    (lineStarts cs).length = (positionLines cs).length := by
  have hnone (index : Nat) :
      (lineStarts cs).length ≤ index ↔ (positionLines cs).length ≤ index := by
    rw [← List.getElem?_eq_none_iff, ← List.getElem?_eq_none_iff, getElem?_lineStarts,
      Option.map_eq_none_iff]
  exact Nat.le_antisymm ((hnone _).mpr (Nat.le_refl _)) ((hnone _).mp (Nat.le_refl _))

section Line

variable {cs line : List Char} {before after : List (List Char)}

theorem lineStarts_of_positionLines (h : positionLines cs = before ++ line :: after) :
    (lineStarts cs)[before.length]? = some (byteSize before.flatten) ∧
      (lineStarts cs)[before.length + 1]? =
        after.head?.map fun _ => byteSize before.flatten + byteSize line := by
  constructor
  · rw [getElem?_lineStarts, h]
    simp
  · rw [getElem?_lineStarts, h]
    cases after with
    | nil => simp
    | cons next after =>
        have htake : (before ++ line :: next :: after).take (before.length + 1) =
            before ++ [line] := by
          rw [List.take_length_add_append]
          rfl
        rw [htake]
        simp

/-- The text from one beginning to the next is the line between them. -/
theorem lineText?_of_positionLines (h : positionLines cs = before ++ line :: after) :
    lineText? cs before.length = some line := by
  obtain ⟨hstart, hnext⟩ := lineStarts_of_positionLines h
  have hcs : cs = before.flatten ++ (line ++ after.flatten) := by
    rw [← flatten_positionLines cs, h, List.flatten_append, List.flatten_cons]
  have hstop : (lineStarts cs)[before.length + 1]?.getD (byteSize cs) =
      byteSize before.flatten + byteSize line := by
    rw [hnext]
    cases after with
    | nil => rw [hcs]; simp
    | cons next after => rfl
  rw [lineText?, hstart, hstop, Option.map_some, hcs, slice_append]

end Line

/-! ### Trimmed lines -/

/-- A line without the carriage returns and line feeds at its end. -/
def IsTrimmed (line trimmed : List Char) : Prop :=
  ∃ breaks, line = trimmed ++ breaks ∧ (∀ c ∈ breaks, c = '\n' ∨ c = '\r') ∧
    ∀ c ∈ trimmed.getLast?, c ≠ '\n' ∧ c ≠ '\r'

theorem isTrimmed_trimLineBreaks (line : List Char) : IsTrimmed line (trimLineBreaks line) := by
  refine ⟨(line.reverse.takeWhile fun c => c == '\n' || c == '\r').reverse, ?_, fun c hc => ?_,
    fun c hc => ?_⟩
  · rw [trimLineBreaks, ← List.reverse_append, List.takeWhile_append_dropWhile,
      List.reverse_reverse]
  · have hbreak := List.all_eq_true.mp List.all_takeWhile c (List.mem_reverse.mp hc)
    simpa using hbreak
  · rw [trimLineBreaks, List.getLast?_reverse] at hc
    have hkept := List.head?_dropWhile_not (fun c => c == '\n' || c == '\r') line.reverse
    rw [Option.mem_def.mp hc] at hkept
    simpa using hkept

/-! ### Positions -/

/-- The line of an offset is the last one that begins no later, and its column counts the characters
before it on the line. -/
structure StandsAt (cs : List Char) (offset : Nat) (location : Location) : Prop where
  pos : 1 ≤ location.line
  start : ∃ start, (lineStarts cs)[location.line - 1]? = some start ∧ start ≤ offset ∧
    (∀ next ∈ (lineStarts cs)[location.line]?, offset < next) ∧
    location.col = (slice cs ⟨start, offset⟩).length + 1
  sourceLine : ∃ line, lineText? cs (location.line - 1) = some line ∧
    IsTrimmed line location.sourceLine.toList

theorem standsAt_of_cut (file : String) {cs p q : List Char} {before after : List (List Char)}
    (h : positionLines cs = before ++ (p ++ q) :: after)
    (hcut : byteSize p < byteSize (p ++ q) ∨ after = []) :
    StandsAt cs (byteSize before.flatten + byteSize p)
      (Location.ofOffset file cs (byteSize before.flatten + byteSize p)) := by
  obtain ⟨hstart, hnext⟩ := lineStarts_of_positionLines h
  have hcs : cs = before.flatten ++ (p ++ (q ++ after.flatten)) := by
    rw [← flatten_positionLines cs, h, List.flatten_append, List.flatten_cons, List.append_assoc]
  rw [ofOffset_of_cut file h hcut]
  refine ⟨Nat.succ_pos _, ⟨_, hstart, Nat.le_add_right _ _, fun next hmem => ?_, ?_⟩, p ++ q,
    lineText?_of_positionLines h, ?_⟩
  · rw [hnext, Option.mem_def, Option.map_eq_some_iff] at hmem
    obtain ⟨line, hline, rfl⟩ := hmem
    have hlt := hcut.resolve_right fun hnil => by
      rw [hnil] at hline
      cases hline
    omega
  · rw [hcs, slice_append]
  · rw [String.toList_ofList]
    exact isTrimmed_trimLineBreaks _

/-- Every offset between two characters of a text, the end of the text included, is the offset of
its line and column; and every line and column is that of its offset, for all characters of a line
with its line feed. -/
theorem positions_round_trip (file source : String) :
    (∀ offset : Nat, String.Pos.Raw.IsValid source ⟨offset⟩ →
      let location := Location.ofOffset file source.toList offset
      StandsAt source.toList offset location ∧
        offsetOf? source.toList location.line location.col = some offset) ∧
    ∀ line, 1 ≤ line → line ≤ (lineStarts source.toList).length →
      ∃ text, lineText? source.toList (line - 1) = some text ∧
        ∀ col, 1 ≤ col → col ≤ text.length →
          ∃ offset, offsetOf? source.toList line col = some offset ∧
            String.Pos.Raw.IsValid source ⟨offset⟩ ∧
            (Location.ofOffset file source.toList offset).line = line ∧
            (Location.ofOffset file source.toList offset).col = col := by
  constructor
  · intro offset hoffset
    obtain ⟨front, back, hsource, rfl⟩ := isValid_iff_exists_append.mp hoffset
    have hflatten := flatten_positionLines source.toList
    obtain ⟨before, p, q, after, hlines, rfl, hcut⟩ :=
      exists_cut_line (positionLines_ne_nil source.toList) (hflatten.trans hsource)
    rw [byteSize_append]
    refine ⟨standsAt_of_cut file hlines hcut, ?_⟩
    rw [ofOffset_of_cut file hlines hcut]
    exact offsetOf?_of_cut hlines
  · intro line hpos hle
    obtain ⟨index, rfl⟩ := Nat.exists_eq_add_of_le' hpos
    rw [length_lineStarts] at hle
    -- The lines around the one with this number.
    obtain ⟨before, text, after, hlines, rfl⟩ : ∃ before text after,
        positionLines source.toList = before ++ text :: after ∧ before.length = index :=
      ⟨_, _, _, (List.take_append_drop index _).symm.trans
        (congrArg _ (List.drop_eq_getElem_cons hle)), List.length_take_of_le (Nat.le_of_lt hle)⟩
    refine ⟨text, lineText?_of_positionLines hlines, fun col hcol hlength => ?_⟩
    obtain ⟨n, rfl⟩ := Nat.exists_eq_add_of_le' hcol
    rw [← List.take_append_drop n text] at hlines
    have hinside : byteSize (text.take n) < byteSize (text.take n ++ text.drop n) := by
      have hrest : text.drop n ≠ [] := fun hnil => by
        have hle := List.drop_eq_nil_iff.mp hnil
        omega
      have hsize := byteSize_pos hrest
      rw [byteSize_append]
      omega
    have hcol : (text.take n).length = n := List.length_take_of_le (Nat.le_of_lt hlength)
    have hoffset := offsetOf?_of_cut hlines
    rw [hcol] at hoffset
    refine ⟨_, hoffset, isValid_iff_exists_append.mpr ⟨before.flatten ++ text.take n,
      text.drop n ++ after.flatten, ?_, byteSize_append _ _⟩, ?_⟩
    · rw [← flatten_positionLines source.toList, hlines, List.flatten_append, List.flatten_cons,
        List.append_assoc, List.append_assoc]
    · rw [ofOffset_of_cut file hlines (.inl hinside), hcol]
      exact ⟨rfl, rfl⟩

/-- A line that ends with a carriage return and a line feed, an empty line, and a last line without
a line feed: the end of the text, and the line feed of the first line. -/
theorem positions_round_trip_unterminated :
    let source := "Ä\r\n\nb"
    (String.Pos.Raw.IsValid source ⟨6⟩ ∧
      Location.ofOffset "A.cs" source.toList 6 = ⟨"A.cs", 3, 2, "b"⟩ ∧
      offsetOf? source.toList 3 2 = some 6) ∧
    1 ≤ (lineStarts source.toList).length ∧ lineText? source.toList 0 = some "Ä\r\n".toList ∧
      ∃ offset, offsetOf? source.toList 1 3 = some offset ∧
        (Location.ofOffset "A.cs" source.toList offset).line = 1 ∧
        (Location.ofOffset "A.cs" source.toList offset).col = 3 := by
  intro source
  obtain ⟨hoffsets, hlines⟩ := positions_round_trip "A.cs" source
  have hvalid : String.Pos.Raw.IsValid source ⟨6⟩ :=
    isValid_iff_exists_append.mpr ⟨source.toList, [], (List.append_nil _).symm, by decide⟩
  have hlocation : Location.ofOffset "A.cs" source.toList 6 = ⟨"A.cs", 3, 2, "b"⟩ := by
    decide +kernel
  have hback := (hoffsets 6 hvalid).2
  rw [hlocation] at hback
  obtain ⟨text, htext, hcols⟩ := hlines 1 (by decide) (by decide +kernel)
  have hfirst : lineText? source.toList 0 = some "Ä\r\n".toList := by decide +kernel
  obtain rfl : text = "Ä\r\n".toList := Option.some.inj (htext.symm.trans hfirst)
  obtain ⟨offset, hoffset, -, hplace⟩ := hcols 3 (by decide) (by decide)
  exact ⟨⟨hvalid, hlocation, hback⟩, by decide +kernel, hfirst, offset, hoffset, hplace⟩

end ResourceLanguage.Text
