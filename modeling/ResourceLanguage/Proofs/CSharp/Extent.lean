import ResourceLanguage.Proofs.ActiveCode.Layout
import ResourceLanguage.Proofs.CSharp.Nesting

/-!
The byte ranges of a syntax tree. Each of them begins with a token and ends with one, so it is cut
between characters of the parsed text. The parsed text has the layout of the whole text, and on the
lines that it keeps its ranges are cut between characters of the whole text too.
-/

namespace ResourceLanguage

open ResourceLanguage.Text

namespace CSharp

/-- A byte range of the tree of a text begins and ends between characters, and it does not begin
with white space. -/
theorem exists_append_of_mem_spans {cs : List Char} {span : Span}
    (h : span ∈ spansOf (parse cs)) :
    (∃ front c back, cs = front ++ c :: back ∧ Lexeme.isSpace c = false ∧
      byteSize front = span.start) ∧
    ∃ front back, cs = front ++ back ∧ byteSize front = span.stop := by
  obtain ⟨node, hnode, rfl⟩ := List.mem_map.mp h
  obtain ⟨first, hfirst, last, hlast, hrange⟩ := (standsIn_parse cs node hnode).1
  obtain ⟨front, c, rest, back, hcs, hc, hspan⟩ := Token.exists_append_of_mem_ofText hfirst
  obtain ⟨front', c', rest', back', hcs', -, hspan'⟩ := Token.exists_append_of_mem_ofText hlast
  rw [hrange]
  refine ⟨⟨front, c, rest ++ back, hcs, hc, ?_⟩, front' ++ c' :: rest', back', ?_, ?_⟩
  · rw [hspan]
  · rw [hcs', List.append_assoc]
  · rw [hspan', byteSize_append]

end CSharp

/-! ### The layout of the parsed text -/

def lineStart (cs : List Char) (index : Nat) : Nat :=
  byteSize ((positionLines cs).take index).flatten

theorem PassState.take_emitAll (state : PassState) (lines : List (List Char)) (index : Nat) :
    (state.emitAll lines).take index = state.emitAll (lines.take index) := by
  induction lines generalizing state index with
  | nil => simp [emitAll]
  | cons line lines ih =>
      cases index with
      | zero => rfl
      | succ index => rw [emitAll, List.take_succ_cons, List.take_succ_cons, emitAll, ih]

/-- The active code has its lines where the whole text has them. -/
theorem lineStart_activeCode (code : List Char) (symbols : Symbols) :
    (positionLines (activeCode code symbols)).length = (positionLines code).length ∧
      ∀ index, lineStart (activeCode code symbols) index = lineStart code index := by
  obtain ⟨rest, -, hcode, hactive⟩ := PassState.positionLines_emitAll (areLines_rawLines code)
  rw [flatten_rawLines] at hcode
  have hactive := hactive (.initial symbols)
  change positionLines (activeCode code symbols) = _ at hactive
  refine ⟨?_, fun index => ?_⟩
  · rw [hcode, hactive, List.length_append, List.length_append, PassState.length_emitAll]
  · rw [lineStart, lineStart, hcode, hactive, List.take_append, List.take_append,
      PassState.take_emitAll, PassState.length_emitAll, List.flatten_append, List.flatten_append,
      byteSize_append, byteSize_append, PassState.byteSize_flatten_emitAll]

theorem toList_activeSource (code : String) (symbols : Symbols) :
    (activeSource code symbols).toList = activeCode code.toList symbols := String.toList_ofList

theorem isValid_of_onKeptLine {code : String} {symbols : Symbols} {offset : Nat}
    (h : String.Pos.Raw.IsValid (activeSource code symbols) ⟨offset⟩)
    (hkept : OnKeptLine code.toList (activeSource code symbols).toList offset) :
    String.Pos.Raw.IsValid code ⟨offset⟩ := by
  obtain ⟨front, back, hactive, rfl⟩ := isValid_iff_exists_append.mp h
  rw [toList_activeSource] at hactive hkept
  exact isValid_iff_exists_append.mpr (exists_append_of_onKeptLine hactive hkept)

/-- The pass keeps the layout of a text. No byte and no line is gained or lost, line feeds stand at
the same offsets, every line stays or becomes spaces, and every directive becomes spaces. Lines
begin where they began, and the byte ranges of the syntax tree, which are cut between characters of
the active code, are cut between characters of the whole text wherever they begin or end on a line
that stays. -/
theorem activeSource_keeps_layout (code : String) (symbols : Symbols) :
    (activeSource code symbols).utf8ByteSize = code.utf8ByteSize ∧
    (∀ offset : Nat, (activeSource code symbols).toUTF8.data.toList[offset]? = some 10 ↔
      code.toUTF8.data.toList[offset]? = some 10) ∧
    List.Forall₂ LaidOut (rawLines code.toList) (rawLines (activeSource code symbols).toList) ∧
    ((positionLines (activeSource code symbols).toList).length =
        (positionLines code.toList).length ∧
      ∀ index, lineStart (activeSource code symbols).toList index =
        lineStart code.toList index) ∧
    (∀ offset : Nat, String.Pos.Raw.IsValid (activeSource code symbols) ⟨offset⟩ →
      OnKeptLine code.toList (activeSource code symbols).toList offset →
        String.Pos.Raw.IsValid code ⟨offset⟩) ∧
    ∀ span ∈ CSharp.spansOf (CSharp.parse (activeSource code symbols).toList),
      ∀ offset ∈ [span.start, span.stop],
        String.Pos.Raw.IsValid (activeSource code symbols) ⟨offset⟩ ∧
          (OnKeptLine code.toList (activeSource code symbols).toList offset →
            String.Pos.Raw.IsValid code ⟨offset⟩) := by
  have hlist := toList_activeSource code symbols
  refine ⟨?_, fun offset => ?_, ?_, ?_, fun offset hvalid hkept =>
    isValid_of_onKeptLine hvalid hkept, fun span hspan offset hoffset => ?_⟩
  · rw [utf8ByteSize_eq_byteSize, utf8ByteSize_eq_byteSize, hlist, activeCode,
      PassState.byteSize_flatten_emitAll, flatten_rawLines]
  · have halike := PassState.feedsAlike_emitAll (.initial symbols) (rawLines code.toList)
    rw [flatten_rawLines] at halike
    rw [data_toUTF8, data_toUTF8, hlist]
    exact halike.getElem?_iff offset
  · rw [hlist, rawLines_activeCode]
    exact PassState.laidOut_emitAll _ fun line hline => isSpaces_blankLine hline
  · rw [hlist]
    exact lineStart_activeCode code.toList symbols
  · have hvalid : String.Pos.Raw.IsValid (activeSource code symbols) ⟨offset⟩ := by
      obtain ⟨⟨front, c, back, hstart, -, hsize⟩, hstop⟩ :=
        CSharp.exists_append_of_mem_spans hspan
      rw [isValid_iff_exists_append]
      simp only [List.mem_cons, List.not_mem_nil, or_false] at hoffset
      rcases hoffset with rfl | rfl
      · exact ⟨front, c :: back, hstart, hsize⟩
      · exact hstop
    exact ⟨hvalid, isValid_of_onKeptLine hvalid⟩

/-- The range of a class after a blank branch, with characters of two bytes in both. -/
theorem activeSource_keeps_layout_blankBranch :
    let code := "#if X\nΩ\n#endif\nclass Ä { }\n"
    (activeSource code []).utf8ByteSize = code.utf8ByteSize ∧
      ⟨16, 28⟩ ∈ CSharp.spansOf (CSharp.parse (activeSource code []).toList) ∧
      OnKeptLine code.toList (activeSource code []).toList 28 ∧
      String.Pos.Raw.IsValid code ⟨28⟩ := by
  intro code
  obtain ⟨hsize, -, -, -, -, hspans⟩ := activeSource_keeps_layout code []
  have hactive : (activeSource code []).toList = "     \n  \n      \nclass Ä { }\n".toList := by
    have hlines : rawLines code.toList = [] ++ "#if X\n".toList ::
        ["Ω\n".toList, "#endif\n".toList, "class Ä { }\n".toList] := by decide +kernel
    rw [toList_activeSource, activeCode_of_undefined "X" [] hlines (by decide +kernel)
      (by decide +kernel) rfl]
    decide +kernel
  have hspan : ⟨16, 28⟩ ∈ CSharp.spansOf (CSharp.parse (activeSource code []).toList) := by
    rw [hactive]
    decide +kernel
  have hkept : OnKeptLine code.toList (activeSource code []).toList 28 := by
    rw [hactive]
    exact ⟨3, "class Ä { }\n".toList, by decide +kernel⟩
  exact ⟨hsize, hspan, hkept, (hspans ⟨16, 28⟩ hspan 28 (by simp)).2 hkept⟩

end ResourceLanguage
