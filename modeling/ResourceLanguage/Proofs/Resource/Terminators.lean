import ResourceLanguage.Proofs.Resource.MarkerBlock
import ResourceLanguage.Proofs.Text.Bytes

/-!
Lines and their terminators. Splitting a text takes one terminator from every line, and joining puts
the same one at the end of every line. Lines that can be told from their terminators are therefore
found again, and a text whose lines all end alike is kept byte for byte outside the block that a
plan removes.
-/

namespace ResourceLanguage

open ResourceLanguage.Text

/-! ### Line feeds and carriage returns -/

namespace Text

/-- A line ends with a line feed, or it is the last one and ends as the text does. -/
theorem AreLines.exists_getLast?_of_mem {lines : List (List Char)} (h : AreLines lines)
    {line : List Char} (hline : line ∈ lines) :
    ∃ c, line.getLast? = some c ∧ (c = '\n' ∨ lines.flatten.getLast? = some c) := by
  induction h with
  | nil => cases hline
  | last hne _ =>
      obtain rfl := List.mem_singleton.mp hline
      refine ⟨line.getLast hne, List.getLast?_eq_some_getLast hne, .inr ?_⟩
      rw [List.flatten_singleton, List.getLast?_eq_some_getLast hne]
  | cons _ _ ih =>
      rcases List.mem_cons.mp hline with rfl | hline
      · exact ⟨'\n', by simp, .inl rfl⟩
      · obtain ⟨c, hc, hlast⟩ := ih hline
        refine ⟨c, hc, hlast.imp_right fun hlast => ?_⟩
        rw [List.flatten_cons, List.getLast?_append, hlast]
        rfl

/-- A carriage return and the line feed after it stand at the end of one line. -/
theorem AreLines.return_isInfix_iff {lines : List (List Char)} (h : AreLines lines) :
    ['\r', '\n'] <:+: lines.flatten ↔ ∃ line ∈ lines, ['\r', '\n'] <:+ line := by
  constructor
  · intro hinfix
    have hnone {line : List Char} (hfeed : '\n' ∉ line) : ¬['\r', '\n'] <:+: line :=
      fun hinside => hfeed (hinside.subset (by simp))
    induction h with
    | nil => exact absurd hinfix (by simp)
    | last _ hfeed =>
        rw [List.flatten_singleton] at hinfix
        exact absurd hinfix (hnone hfeed)
    | @cons line lines hfeed _ ih =>
        have hlater (h : ['\r', '\n'] <:+: lines.flatten) :
            ∃ found ∈ (line ++ ['\n']) :: lines, ['\r', '\n'] <:+ found := by
          obtain ⟨found, hfound, hsuffix⟩ := ih h
          exact ⟨found, List.mem_cons_of_mem _ hfound, hsuffix⟩
        rw [List.flatten_cons, List.infix_append_iff] at hinfix
        rcases hinfix with hinside | hinside | ⟨front, back, hsplit, hfront, hback⟩
        · rcases List.infix_concat_iff.mp hinside with hsuffix | hinside
          · exact ⟨_, List.mem_cons_self, hsuffix⟩
          · exact absurd hinside (hnone hfeed)
        · exact hlater hinside
        · -- A line ends with a line feed, so the two do not stand across its end.
          rcases front with _ | ⟨first, _ | ⟨second, front⟩⟩
          · exact hlater (hsplit ▸ hback.isInfix)
          · obtain ⟨rfl, -⟩ := List.cons.inj hsplit
            obtain ⟨start, hstart⟩ := hfront
            exact absurd (List.append_inj' hstart rfl).2 (by decide)
          · simp only [List.cons_append, List.cons.injEq, List.nil_eq_append_iff] at hsplit
            obtain ⟨rfl, rfl, rfl, -⟩ := hsplit
            exact ⟨_, List.mem_cons_self, hfront⟩
  · rintro ⟨line, hline, hsuffix⟩
    exact hsuffix.isInfix.trans (List.infix_of_mem_flatten hline)

/-- Every line feed stands behind a carriage return. -/
def FeedsReturned (cs : List Char) : Prop :=
  ∀ i < cs.length, cs[i]? = some '\n' → 0 < i ∧ cs[i - 1]? = some '\r'

theorem FeedsReturned.getLast?_eq {front back : List Char}
    (h : FeedsReturned (front ++ '\n' :: back)) : front.getLast? = some '\r' := by
  obtain ⟨hpos, hreturn⟩ := h front.length (by simp) (by simp)
  rw [List.getElem?_append_left (by omega)] at hreturn
  rwa [List.getLast?_eq_getElem?]

theorem FeedsReturned.of_append {front back : List Char}
    (h : FeedsReturned (front ++ '\n' :: back)) : FeedsReturned back := by
  have hshift (j : Nat) : (front ++ '\n' :: back)[front.length + (j + 1)]? = back[j]? := by
    rw [List.getElem?_append_right (by omega), Nat.add_sub_cancel_left, List.getElem?_cons_succ]
  intro i hi hfeed
  obtain ⟨-, hreturn⟩ := h (front.length + (i + 1)) (by simp; omega) (by rwa [hshift])
  cases i with
  | zero => simp at hreturn
  | succ i => exact ⟨i.succ_pos, by rwa [← hshift]⟩

theorem AreLines.return_suffix_of_mem {lines : List (List Char)} (h : AreLines lines)
    (hreturned : FeedsReturned lines.flatten) {line : List Char} (hline : line ∈ lines)
    (hlast : line.getLast? = some '\n') : ['\r', '\n'] <:+ line := by
  induction h with
  | nil => cases hline
  | last _ hfeed =>
      obtain rfl := List.mem_singleton.mp hline
      exact absurd (List.mem_of_getLast? hlast) hfeed
  | cons _ _ ih =>
      rw [List.flatten_cons, List.append_assoc, List.singleton_append] at hreturned
      rcases List.mem_cons.mp hline with rfl | hline
      · obtain ⟨start, rfl⟩ := List.getLast?_eq_some_iff.mp hreturned.getLast?_eq
        exact ⟨start, by simp⟩
      · exact ih hreturned.of_append hline

end Text

/-! ### Terminators -/

namespace LineEnding

theorem detect_eq_iff (text : String) :
    detect text = .carriageReturnLineFeed ↔
      ∃ line ∈ rawLines text.toList, ['\r', '\n'] <:+ line := by
  have hlines := (areLines_rawLines text.toList).return_isInfix_iff
  rw [flatten_rawLines] at hlines
  rw [← hlines, ← occursIn_iff_isInfix, detect]
  split
  · simp [*]
  · simp [*]

/-- A line that can be told from the terminator behind it. -/
def Ends (ending : LineEnding) (line : List Char) : Prop :=
  ending = .lineFeed → line.getLast? ≠ some '\r'

theorem bareLine_append {ending : LineEnding} {line : List Char} (h : ending.Ends line) :
    bareLine (line ++ ending.text.toList) = line := by
  cases ending with
  | carriageReturnLineFeed => simp [bareLine, text]
  | lineFeed =>
      rcases eq_bareLine_append (line ++ ['\n']) with ⟨-, hlast⟩ | hbare | hbare
      · simp at hlast
      · exact (List.append_cancel_right hbare).symm
      · have hreturn : line = bareLine (line ++ ['\n']) ++ ['\r'] := by
          rw [← List.append_left_inj ['\n'], List.append_assoc]
          exact hbare
        rw [hreturn] at h
        exact absurd (by simp) (h rfl)

end LineEnding

/-- Lines without line feeds that can be told from their terminators are found again. -/
theorem textLines_joinLines {lines : List String} {ending : LineEnding}
    (hfeed : ∀ line ∈ lines, '\n' ∉ line.toList) (hends : ∀ line ∈ lines, ending.Ends line.toList) :
    textLines (joinLines lines ending) = lines := by
  rw [textLines, bareLines, rawLines_joinLines hfeed, List.map_map, List.map_map]
  refine (List.map_congr_left fun line hline => ?_).trans (List.map_id lines)
  simp only [Function.comp_apply, LineEnding.bareLine_append (hends line hline),
    String.ofList_toList, id_eq]

/-- The terminator of joined lines is found again, if there is a line. -/
theorem detect_joinLines {lines : List String} {ending : LineEnding}
    (hfeed : ∀ line ∈ lines, '\n' ∉ line.toList) (hends : ∀ line ∈ lines, ending.Ends line.toList)
    (hne : lines ≠ []) : LineEnding.detect (joinLines lines ending) = ending := by
  have hdetect := LineEnding.detect_eq_iff (joinLines lines ending)
  rw [rawLines_joinLines hfeed] at hdetect
  cases ending with
  | carriageReturnLineFeed =>
      obtain ⟨line, hline⟩ := List.exists_mem_of_ne_nil lines hne
      exact hdetect.mpr ⟨_, List.mem_map_of_mem hline, List.suffix_append _ _⟩
  | lineFeed =>
      cases hfound : LineEnding.detect (joinLines lines .lineFeed) with
      | lineFeed => rfl
      | carriageReturnLineFeed =>
          obtain ⟨_, hmem, start, hstart⟩ := hdetect.mp hfound
          obtain ⟨line, hline, rfl⟩ := List.mem_map.mp hmem
          have hreturn : start ++ ['\r'] = line.toList := by
            rw [← List.append_left_inj ['\n'], List.append_assoc]
            exact hstart
          exact absurd (by simp [← hreturn]) (hends line hline rfl)

/-- Where no carriage return stands at the end of a text with bare line feeds, the lines of the text
can be told from their terminators. -/
theorem ends_of_mem_textLines {text : String}
    (h : occursIn ['\r', '\n'] text.toList = true ∨ text.toList.getLast? ≠ some '\r')
    {line : String} (hline : line ∈ textLines text) :
    (LineEnding.detect text).Ends line.toList := by
  intro hdetect hreturn
  have hnone : ∀ raw ∈ rawLines text.toList, ¬['\r', '\n'] <:+ raw := by
    intro raw hraw hsuffix
    have hfound := (LineEnding.detect_eq_iff text).mpr ⟨raw, hraw, hsuffix⟩
    rw [hdetect] at hfound
    cases hfound
  obtain ⟨bare, hbare, rfl⟩ := List.mem_map.mp hline
  obtain ⟨raw, hraw, rfl⟩ := List.mem_map.mp hbare
  rw [String.toList_ofList] at hreturn
  rcases eq_bareLine_append raw with ⟨heq, -⟩ | heq | heq
  · -- A line without a terminator is the last one.
    obtain ⟨c, hc, hlast⟩ := (areLines_rawLines text.toList).exists_getLast?_of_mem hraw
    rw [flatten_rawLines] at hlast
    obtain rfl : c = '\r' := by simpa [← heq, hc] using hreturn
    rcases hlast with hlast | hlast
    · exact absurd hlast (by decide)
    · rcases h with hoccurs | hfinal
      · simp [LineEnding.detect, hoccurs] at hdetect
      · exact hfinal hlast
  · obtain ⟨start, hstart⟩ := List.getLast?_eq_some_iff.mp hreturn
    exact hnone raw hraw ⟨start, by rw [heq, hstart]; simp⟩
  · exact hnone raw hraw ⟨bareLine raw, heq.symm⟩

theorem originalLines_ofText (path : Path) (text : String) :
    (Plan.ofText path text).originalLines = textLines text := rfl

theorem lineEnding_ofText (path : Path) (text : String) :
    (Plan.ofText path text).lineEnding = LineEnding.detect text := rfl

/-- A plan writes the lines that it has planned, with the terminator that it has found. -/
theorem newText_ofText_reads_back (path : Path) {text : String}
    (h : occursIn ['\r', '\n'] text.toList = true ∨ text.toList.getLast? ≠ some '\r') :
    textLines (Plan.ofText path text).newText = (Plan.ofText path text).newLines ∧
      ((Plan.ofText path text).newLines ≠ [] →
        LineEnding.detect (Plan.ofText path text).newText =
          (Plan.ofText path text).lineEnding) := by
  have hsub := (stripMarkerLines_sublist (textLines text)).subset
  have hfeed : ∀ line ∈ stripMarkerLines (textLines text), '\n' ∉ line.toList :=
    fun line hline => lineFeed_notMem_of_mem_textLines (hsub hline)
  have hends : ∀ line ∈ stripMarkerLines (textLines text),
      (LineEnding.detect text).Ends line.toList :=
    fun line hline => ends_of_mem_textLines h (hsub hline)
  exact ⟨textLines_joinLines hfeed hends, detect_joinLines hfeed hends⟩

/-! ### Lines with their terminators -/

def terminatedLines (text : String) : List String := (rawLines text.toList).map String.ofList

@[simp] theorem join_terminatedLines (text : String) :
    String.join (terminatedLines text) = text := by
  rw [← String.toList_inj, String.toList_join, terminatedLines, List.flatMap_map]
  simp [List.flatMap_id']

def bareText (line : String) : String := String.ofList (bareLine line.toList)

theorem textLines_eq_map (text : String) :
    textLines text = (terminatedLines text).map bareText := by
  simp [textLines, bareLines, terminatedLines, bareText]

theorem hasMarker_bareText (line : String) : hasMarker (bareText line) = hasMarker line := by
  rw [bareText, hasMarker_ofList_bareLine, String.ofList_toList]

theorem hasClosingTag_bareText (line : String) :
    hasClosingTag (bareText line) = hasClosingTag line := by
  rw [bareText, hasClosingTag_ofList_bareLine, String.ofList_toList]

/-- The block is the same whether or not the lines have their terminators. -/
theorem MarkerBlock.map_bareText {lines header block tail : List String}
    (h : MarkerBlock lines header block tail) :
    MarkerBlock (lines.map bareText) (header.map bareText) (block.map bareText)
      (tail.map bareText) where
  lines_eq := by rw [h.lines_eq, List.map_append, List.map_append]
  header_unmarked := by simpa [hasMarker_bareText] using h.header_unmarked
  begins := by
    obtain ⟨marked, rest, rfl, hmarked⟩ := h.begins
    exact ⟨bareText marked, rest.map bareText, rfl, by rwa [hasMarker_bareText]⟩
  ends := by
    rcases h.ends with ⟨inner, closing, rfl, hclosing, hinner⟩ | ⟨rfl, hblock⟩
    · refine .inl ⟨inner.map bareText, bareText closing, by simp, ?_, ?_⟩
      · rwa [hasClosingTag_bareText]
      · simpa [hasClosingTag_bareText] using hinner
    · exact .inr ⟨rfl, by simpa [hasClosingTag_bareText] using hblock⟩

theorem joinLines_map_bareText {lines : List String} {ending : LineEnding}
    (h : ∀ line ∈ lines, ∃ start, ending.Ends start ∧
      line.toList = start ++ ending.text.toList) :
    joinLines (lines.map bareText) ending = String.join lines := by
  rw [← String.toList_inj, String.toList_join, joinLines, String.toList_ofList, List.flatMap_map]
  refine List.flatMap_congr fun line hline => ?_
  obtain ⟨start, hends, hstart⟩ := h line hline
  rw [bareText, String.toList_ofList, hstart, LineEnding.bareLine_append hends]

/-! ### Texts whose lines end alike -/

/-- Either every line feed stands behind a carriage return, or none does. -/
def UniformEndings (text : String) : Prop :=
  FeedsReturned text.toList ∨ occursIn ['\r', '\n'] text.toList = false

theorem exists_start_of_uniformEndings {text : String}
    (hfinal : text = "" ∨ text.toList.getLast? = some '\n') (huniform : UniformEndings text)
    {line : String} (hline : line ∈ terminatedLines text) :
    ∃ start, (LineEnding.detect text).Ends start ∧
      line.toList = start ++ (LineEnding.detect text).text.toList := by
  obtain ⟨raw, hraw, rfl⟩ := List.mem_map.mp hline
  have hlines := areLines_rawLines text.toList
  have hfeed : raw.getLast? = some '\n' := by
    obtain ⟨c, hc, hlast⟩ := hlines.exists_getLast?_of_mem hraw
    rw [flatten_rawLines] at hlast
    rcases hfinal with rfl | hfinal
    · cases hraw
    · rcases hlast with rfl | hlast
      · exact hc
      · rw [hc, ← hlast, hfinal]
  rw [String.toList_ofList]
  rcases huniform with hreturned | hnone
  · rw [← flatten_rawLines text.toList] at hreturned
    have hsuffix := hlines.return_suffix_of_mem hreturned hraw hfeed
    rw [(LineEnding.detect_eq_iff text).mpr ⟨raw, hraw, hsuffix⟩]
    obtain ⟨start, rfl⟩ := hsuffix
    exact ⟨start, fun h => absurd h (by decide), rfl⟩
  · have hdetect : LineEnding.detect text = .lineFeed := by simp [LineEnding.detect, hnone]
    obtain ⟨start, rfl⟩ := List.getLast?_eq_some_iff.mp hfeed
    rw [hdetect]
    refine ⟨start, fun _ hreturn => ?_, rfl⟩
    obtain ⟨front, rfl⟩ := List.getLast?_eq_some_iff.mp hreturn
    have hdetect' := (LineEnding.detect_eq_iff text).mpr ⟨_, hraw, front, by simp⟩
    rw [hdetect] at hdetect'
    cases hdetect'

/-- The bytes of a text without a piece in its middle. -/
theorem data_toUTF8_cut (front piece back : String) :
    (front ++ back).toUTF8.data.toList =
      (front ++ piece ++ back).toUTF8.data.toList.take front.utf8ByteSize ++
        (front ++ piece ++ back).toUTF8.data.toList.drop (front ++ piece).utf8ByteSize := by
  have happend (first second : String) : (first ++ second).toUTF8.data.toList =
      first.toUTF8.data.toList ++ second.toUTF8.data.toList := by
    simp only [data_toUTF8, String.toList_append, List.flatMap_append]
  have hlength (text : String) : text.toUTF8.data.toList.length = text.utf8ByteSize := rfl
  rw [happend (front ++ piece), ← hlength (front ++ piece), List.drop_left, happend front piece,
    List.append_assoc, ← hlength front, List.take_left, happend]

/-- A text whose lines all end alike, and that is empty or ends with a line feed, loses one range of
bytes and nothing else. The range is that of the block of whole lines that the marker begins, with
their terminators, and it is empty when no line has the marker. -/
theorem newText_cuts_block (path : Path) {text : String}
    (hfinal : text = "" ∨ text.toList.getLast? = some '\n') (huniform : UniformEndings text) :
    ∃ start stop, start ≤ stop ∧ stop ≤ text.utf8ByteSize ∧
      (Plan.ofText path text).newText.toUTF8.data.toList =
        text.toUTF8.data.toList.take start ++ text.toUTF8.data.toList.drop stop ∧
      (((terminatedLines text).any hasMarker = false ∧ start = stop) ∨
        ∃ header block tail, MarkerBlock (terminatedLines text) header block tail ∧
          start = (String.join header).utf8ByteSize ∧
          stop = (String.join (header ++ block)).utf8ByteSize) := by
  have hends : ∀ line ∈ terminatedLines text, ∃ start, (LineEnding.detect text).Ends start ∧
      line.toList = start ++ (LineEnding.detect text).text.toList :=
    fun line hline => exists_start_of_uniformEndings hfinal huniform hline
  rw [newText_ofText, restoredText_eq, textLines_eq_map]
  cases hmarked : (terminatedLines text).any hasMarker with
  | false =>
      have hunmarked : ((terminatedLines text).map bareText).any hasMarker = false := by
        simpa [hasMarker_bareText] using hmarked
      refine ⟨0, 0, Nat.le_refl 0, Nat.zero_le _, ?_, .inl ⟨rfl, rfl⟩⟩
      rw [stripMarkerLines_of_unmarked hunmarked, joinLines_map_bareText hends,
        join_terminatedLines]
      simp
  | true =>
      obtain ⟨header, block, tail, hblock⟩ := exists_markerBlock hmarked
      have htext : text = String.join header ++ String.join block ++ String.join tail := by
        rw [← join_terminatedLines text, hblock.lines_eq, String.join_append, String.join_append]
      -- Every line that is kept gets back the terminator that it had.
      have hkept : joinLines (stripMarkerLines ((terminatedLines text).map bareText))
          (LineEnding.detect text) = String.join header ++ String.join tail := by
        rw [hblock.map_bareText.stripMarkerLines_eq, ← List.map_append, ← String.join_append]
        apply joinLines_map_bareText
        intro line hline
        apply hends
        rw [hblock.lines_eq]
        simp only [List.mem_append] at hline ⊢
        tauto
      refine ⟨(String.join header).utf8ByteSize, (String.join (header ++ block)).utf8ByteSize,
        ?_, ?_, ?_, .inr ⟨header, block, tail, hblock, rfl, rfl⟩⟩
      · rw [String.join_append, String.utf8ByteSize_append]
        exact Nat.le_add_right _ _
      · rw [String.join_append]
        conv_rhs => rw [htext, String.utf8ByteSize_append]
        exact Nat.le_add_right _ _
      · rw [hkept, String.join_append]
        conv_rhs => rw [htext]
        exact data_toUTF8_cut (String.join header) (String.join block) (String.join tail)

/-- All lines end with both characters, one of them after a carriage return of its own, and a
closing tag stands before the block. -/
theorem newText_cuts_block_returns :
    let text := "</metadata>\r\nä\r\r\n$this.Language\r\n</metadata>\r\nb\r\n"
    text.toList.getLast? = some '\n' ∧ UniformEndings text ∧
      ∃ header block tail, MarkerBlock (terminatedLines text) header block tail ∧
        (Plan.ofText "A.resx" text).newText.toUTF8.data.toList =
          text.toUTF8.data.toList.take (String.join header).utf8ByteSize ++
            text.toUTF8.data.toList.drop (String.join (header ++ block)).utf8ByteSize := by
  intro text
  have hfinal : text.toList.getLast? = some '\n' := by decide +kernel
  have huniform : UniformEndings text := .inl (by unfold FeedsReturned; decide +kernel)
  have hmarked : (terminatedLines text).any hasMarker = true := by decide +kernel
  obtain ⟨start, stop, -, -, hbytes, ⟨hnone, -⟩ | ⟨header, block, tail, hblock, rfl, rfl⟩⟩ :=
    newText_cuts_block "A.resx" (.inr hfinal) huniform
  · rw [hmarked] at hnone
    cases hnone
  · exact ⟨hfinal, huniform, header, block, tail, hblock, hbytes⟩

end ResourceLanguage
