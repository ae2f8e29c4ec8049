import ResourceLanguage.Proofs.Diff.Hunk
import ResourceLanguage.Proofs.Text.Number

/-!
Unified diffs, read and applied. A hunk is read from its printed lines: a head that gives its place
in both texts, and lines with a sign in front. It is applied to a text at the place that the head
gives, where it must find the lines that it takes away or keeps. Hunks that lie over two texts are
read back as they were printed, and applied to the old text they give the new one.
-/

namespace ResourceLanguage.Diff

open ResourceLanguage.Text

/-! ### Reading -/

/-- Some lines of a text as the head of a hunk gives them: the number of the first one and how many
there are. If there are none, the number is that of the line before. -/
structure LineRange where
  first : Nat
  count : Nat
  deriving DecidableEq, Repr

namespace LineRange

/-- The number of lines before a range. -/
def start (range : LineRange) : Nat :=
  if range.count = 0 then range.first else range.first - 1

/-- So many lines after so many others. -/
def after (start count : Nat) : LineRange :=
  ⟨if count = 0 then start else start + 1, count⟩

@[simp] theorem start_after (start count : Nat) : (after start count).start = start := by
  by_cases h : count = 0 <;> simp [LineRange.start, after, h]

end LineRange

structure ReadHunk where
  old : LineRange
  new : LineRange
  lines : List HunkLine
  deriving DecidableEq, Repr

/-- What follows a piece that a text begins with. -/
def skip? (piece text : List Char) : Option (List Char) :=
  if piece.isPrefixOf text then some (text.drop piece.length) else none

/-- The number that a text begins with, and what follows it. -/
def readNumber? (text : List Char) : Option (Nat × List Char) :=
  if (text.takeWhile Char.isDigit).isEmpty then none
  else some (leadingNumber text, text.dropWhile Char.isDigit)

/-- A range: a number, and after a comma how many lines there are, unless it is one. -/
def readRange? (text : List Char) : Option (LineRange × List Char) := do
  let (first, rest) ← readNumber? text
  match rest with
  | ',' :: rest =>
      let (count, rest) ← readNumber? rest
      return (⟨first, count⟩, rest)
  | rest => return (⟨first, 1⟩, rest)

def readHead? (line : List Char) : Option (LineRange × LineRange) := do
  let rest ← skip? "@@ -".toList line
  let (old, rest) ← readRange? rest
  let rest ← skip? " +".toList rest
  let (new, rest) ← readRange? rest
  if rest = " @@\n".toList then return (old, new) else none

/-- A line of a hunk, by its sign. A line without anything is an empty line that is kept. -/
def readLine? : List Char → Option HunkLine
  | ['\n'] => some ⟨.keep, ['\n']⟩
  | ' ' :: text => some ⟨.keep, text⟩
  | '-' :: text => some ⟨.delete, text⟩
  | '+' :: text => some ⟨.insert, text⟩
  | _ => none

def isHead (line : List Char) : Bool := line.head? == some '@'

/-- The hunks of a diff, from the lines below its header. A hunk goes as far as the next head. -/
def readHunks? : List (List Char) → Option (List ReadHunk)
  | [] => some []
  | line :: rest => do
      let (old, new) ← readHead? line
      let lines ← (rest.takeWhile (!isHead ·)).mapM readLine?
      let hunks ← readHunks? (rest.dropWhile (!isHead ·))
      return ⟨old, new, lines⟩ :: hunks
termination_by lines => lines.length
decreasing_by
  exact Nat.lt_succ_of_le (List.dropWhile_sublist _).length_le

/-! ### Applying -/

/-- A text with some hunks applied, when `oldLine` lines have been read and `newLine` lines written
before. The lines in front of a hunk are copied; then its old lines must follow, which are replaced
by its new lines. -/
def patched? (oldLine newLine : Nat) (text : List (List Char)) :
    List ReadHunk → Option (List (List Char))
  | [] => some text
  | hunk :: hunks =>
      let skipped := hunk.old.start - oldLine
      let old := oldTexts hunk.lines
      let new := newTexts hunk.lines
      if oldLine ≤ hunk.old.start ∧ skipped ≤ text.length ∧ hunk.new.start = newLine + skipped ∧
          old.isPrefixOf (text.drop skipped) then
        (patched? (hunk.old.start + old.length) (hunk.new.start + new.length)
          (text.drop (skipped + old.length)) hunks).map (text.take skipped ++ new ++ ·)
      else none

/-! ### Printed hunks are read back -/

theorem skip?_append (piece rest : List Char) : skip? piece (piece ++ rest) = some rest := by
  have hstart : piece.isPrefixOf (piece ++ rest) = true :=
    List.isPrefixOf_iff_prefix.mpr (List.prefix_append piece rest)
  rw [skip?, if_pos hstart, List.drop_left]

theorem readNumber?_append {rest : List Char} (h : rest.takeWhile Char.isDigit = []) (n : Nat) :
    readNumber? (Nat.toDigits 10 n ++ rest) = some (n, rest) := by
  have hne : (Nat.toDigits 10 n).isEmpty = false := by
    rw [List.isEmpty_eq_false_iff, ← List.length_pos_iff]
    exact Nat.length_toDigits_pos
  rw [readNumber?, takeWhile_toDigits_append h, hne, leadingNumber_toDigits_append h,
    dropWhile_toDigits_append h]
  rfl

/-- A range is read back in front of a blank. -/
theorem readRange?_append (start count : Nat) (rest : List Char) :
    readRange? ((renderRange start count).toList ++ ' ' :: rest) =
      some (.after start count, ' ' :: rest) := by
  have hblank : (' ' :: rest).takeWhile Char.isDigit = [] := rfl
  rw [renderRange]
  split
  · -- One line: the count is left out, and the blank ends the number.
    rename_i hone
    rw [toList_toString, readRange?, readNumber?_append hblank, hone]
    rfl
  · have hcomma : ∀ cs, (',' :: cs).takeWhile Char.isDigit = [] := fun _ => rfl
    have hpiece : ",".toList = [','] := rfl
    rw [String.toList_append, String.toList_append, toList_toString, toList_toString, hpiece,
      List.append_assoc, List.append_assoc, List.singleton_append, readRange?,
      readNumber?_append (hcomma _)]
    simp only [Option.bind_eq_bind, Option.bind_some, readNumber?_append hblank]
    rfl

def Hunk.head (hunk : Hunk) : List Char :=
  "@@ -".toList ++ ((renderRange hunk.oldStart hunk.oldCount).toList ++ (" +".toList ++
    ((renderRange hunk.newStart hunk.newCount).toList ++ " @@\n".toList)))

def Hunk.renderLines (hunk : Hunk) : List (List Char) := hunk.head :: hunk.lines.map HunkLine.render

def Hunk.asRead (hunk : Hunk) : ReadHunk :=
  ⟨.after hunk.oldStart hunk.oldCount, .after hunk.newStart hunk.newCount, hunk.lines⟩

theorem Hunk.flatten_renderLines (hunk : Hunk) : hunk.renderLines.flatten = hunk.render := by
  simp [Hunk.renderLines, Hunk.render, Hunk.head, List.flatMap_def, toString]

theorem flatten_flatMap_renderLines (hunks : List Hunk) :
    (hunks.flatMap Hunk.renderLines).flatten = hunks.flatMap Hunk.render := by
  induction hunks with
  | nil => rfl
  | cons hunk hunks ih =>
      rw [List.flatMap_cons, List.flatten_append, hunk.flatten_renderLines, ih, List.flatMap_cons]

theorem Hunk.readHead?_head (hunk : Hunk) :
    readHead? hunk.head = some (hunk.asRead.old, hunk.asRead.new) := by
  have hold : ∀ rest, readRange? ((renderRange hunk.oldStart hunk.oldCount).toList ++
      (" +".toList ++ rest)) = some (hunk.asRead.old, " +".toList ++ rest) :=
    fun rest => readRange?_append hunk.oldStart hunk.oldCount ('+' :: rest)
  have hnew : readRange? ((renderRange hunk.newStart hunk.newCount).toList ++ " @@\n".toList) =
      some (hunk.asRead.new, " @@\n".toList) :=
    readRange?_append hunk.newStart hunk.newCount "@@\n".toList
  simp only [readHead?, Hunk.head, skip?_append, hold, hnew, Option.bind_eq_bind,
    Option.bind_some, if_true]
  rfl

theorem HunkLine.readLine?_render (line : HunkLine) : readLine? line.render = some line := by
  obtain ⟨action, text⟩ := line
  rw [HunkLine.render]
  split
  · rename_i hempty
    obtain ⟨rfl, rfl⟩ := hempty
    rfl
  · cases action <;> rfl

theorem HunkLine.isHead_render (line : HunkLine) : isHead line.render = false := by
  rw [HunkLine.render]
  split
  · rfl
  · cases line.action <;> rfl

theorem mapM_readLine?_render (lines : List HunkLine) :
    (lines.map HunkLine.render).mapM readLine? = some lines := by
  induction lines with
  | nil => rfl
  | cons line lines ih => simp [List.mapM_cons, line.readLine?_render, ih]

/-- The lines of a hunk end where the next hunk begins. -/
theorem span_isHead (lines : List HunkLine) (hunks : List Hunk) :
    (lines.map HunkLine.render ++ hunks.flatMap Hunk.renderLines).takeWhile (!isHead ·) =
        lines.map HunkLine.render ∧
      (lines.map HunkLine.render ++ hunks.flatMap Hunk.renderLines).dropWhile (!isHead ·) =
        hunks.flatMap Hunk.renderLines := by
  -- A line of the text may begin like a head, but its sign stands in front of it.
  have hbody : ∀ line ∈ lines.map HunkLine.render, (!isHead line) = true := by
    simp [HunkLine.isHead_render]
  rw [List.takeWhile_append_of_pos hbody, List.dropWhile_append_of_pos hbody]
  cases hunks with
  | nil => simp
  | cons hunk hunks =>
      have hhead : isHead hunk.head = true := rfl
      simp [Hunk.renderLines, hhead]

theorem readHunks?_renderLines (hunks : List Hunk) :
    readHunks? (hunks.flatMap Hunk.renderLines) = some (hunks.map Hunk.asRead) := by
  induction hunks with
  | nil => simp [readHunks?]
  | cons hunk hunks ih =>
      obtain ⟨htake, hdrop⟩ := span_isHead hunk.lines hunks
      rw [List.flatMap_cons, Hunk.renderLines, List.cons_append, readHunks?, htake, hdrop, ih,
        hunk.readHead?_head, mapM_readLine?_render]
      rfl

/-! ### Hunks that lie over two texts -/

/-- Applied to the old text, the hunks give the new one. -/
theorem patched?_of_laid {oldLine newLine : Nat} {old new : List (List Char)} {hunks : List Hunk}
    (h : Laid oldLine newLine old new hunks) :
    patched? oldLine newLine old (hunks.map Hunk.asRead) = some new := by
  induction h with
  | nil => rfl
  | @cons oldLine newLine old new hunk hunks skipped hold hnew hframed hrest ih =>
      have holdStart : hunk.asRead.old.start = hunk.oldStart := LineRange.start_after _ _
      have hnewStart : hunk.asRead.new.start = hunk.newStart := LineRange.start_after _ _
      have hlines : hunk.asRead.lines = hunk.lines := rfl
      -- The place in the head leaves just the lines that both texts have in front of the hunk.
      have hskipped : hunk.oldStart - oldLine = skipped.length := by omega
      have hfound : (oldTexts hunk.lines).isPrefixOf (oldTexts hunk.lines ++ old) = true :=
        List.isPrefixOf_iff_prefix.mpr (List.prefix_append _ _)
      have hrest : (skipped ++ (oldTexts hunk.lines ++ old)).drop
          (skipped.length + (oldTexts hunk.lines).length) = old := by
        rw [← List.drop_drop, List.drop_left, List.drop_left]
      rw [List.map_cons, patched?]
      simp only [holdStart, hnewStart, hlines, hskipped, List.drop_left, List.take_left, hrest, ih]
      rw [if_pos ⟨by omega, by simp, hnew, hfound⟩, Option.map_some, List.append_assoc]

def leadingKept (lines : List HunkLine) : Nat := (lines.takeWhile (·.action == .keep)).length

/-- A hunk has a change, with `size` kept lines before and after its changes. There are fewer only
where the old text, of `total` lines, begins or ends. -/
structure ReadHunk.HasContext (size total : Nat) (hunk : ReadHunk) : Prop where
  changed : ∃ line ∈ hunk.lines, line.action ≠ .keep
  before : leadingKept hunk.lines = size ∨ leadingKept hunk.lines < size ∧ hunk.old.start = 0
  after : leadingKept hunk.lines.reverse = size ∨
    leadingKept hunk.lines.reverse < size ∧
      hunk.old.start + (oldTexts hunk.lines).length = total

theorem leadingKept_append {lines rest : List HunkLine} (h : ∀ line ∈ lines, line.action = .keep)
    (hrest : ∃ line ∈ rest.head?, line.action ≠ .keep) :
    leadingKept (lines ++ rest) = lines.length := by
  have hkept : ∀ line ∈ lines, (line.action == .keep) = true := by simpa using h
  obtain ⟨first, hfirst, hchanged⟩ := hrest
  cases rest with
  | nil => simp at hfirst
  | cons line rest =>
      obtain rfl : line = first := by simpa using hfirst
      rw [leadingKept, List.takeWhile_append_of_pos hkept, List.takeWhile_cons_of_neg (by simpa),
        List.append_nil]

theorem action_of_mem_contextLines {lines : List (List Char)} {line : HunkLine}
    (h : line ∈ contextLines lines) : line.action = .keep := by
  obtain ⟨_, _, rfl⟩ := List.mem_map.mp h
  rfl

section Frame

variable {start : Nat} {rest : List (List Char)} {lines : List HunkLine}
  (h : Framed start rest lines)
include h

theorem Framed.exists_changed : ∃ line ∈ lines, line.action ≠ .keep := by
  cases h with
  | mk hbody =>
      obtain ⟨first, hfirst, hchanged⟩ := hbody.first
      exact ⟨first, by simp [List.mem_of_mem_head? hfirst], hchanged⟩

theorem Framed.leading :
    leadingKept lines = 3 ∨ leadingKept lines < 3 ∧ start = 0 := by
  cases h with
  | @mk before after body hbody hbefore =>
      obtain ⟨first, hfirst, hchanged⟩ := hbody.first
      have hkept : leadingKept (contextLines before ++ body ++ contextLines after) =
          before.length := by
        rw [List.append_assoc, leadingKept_append fun _ => action_of_mem_contextLines]
        · rw [contextLines, List.length_map]
        · refine ⟨first, ?_, hchanged⟩
          rw [List.head?_append, Option.mem_def.mp hfirst]
          rfl
      rw [hkept]
      exact hbefore

theorem Framed.trailing :
    leadingKept lines.reverse = 3 ∨ leadingKept lines.reverse < 3 ∧ rest = [] := by
  cases h with
  | @mk before after body hbody _ hafter =>
      obtain ⟨last, hlast, hchanged⟩ := hbody.last
      have hkept : leadingKept (contextLines before ++ body ++ contextLines after).reverse =
          after.length := by
        rw [List.reverse_append, leadingKept_append]
        · rw [List.length_reverse, contextLines, List.length_map]
        · exact fun _ hline => action_of_mem_contextLines (List.mem_reverse.mp hline)
        · refine ⟨last, ?_, hchanged⟩
          rw [List.head?_reverse, List.getLast?_append, Option.mem_def.mp hlast]
          rfl
      rw [hkept]
      exact hafter

end Frame

theorem Laid.hasContext {oldLine newLine : Nat} {old new : List (List Char)} {hunks : List Hunk}
    (h : Laid oldLine newLine old new hunks) :
    ∀ hunk ∈ hunks, hunk.asRead.HasContext 3 (oldLine + old.length) := by
  induction h with
  | nil => simp
  | @cons oldLine newLine old new hunk hunks skipped hold hnew hframed hrest ih =>
      have htotal : oldLine + (skipped ++ (oldTexts hunk.lines ++ old)).length =
          hunk.oldStart + (oldTexts hunk.lines).length + old.length := by
        rw [List.length_append, List.length_append]
        omega
      rw [htotal]
      refine List.forall_mem_cons.mpr ⟨⟨hframed.exists_changed, ?_, ?_⟩, ih⟩
      · rw [Hunk.asRead, LineRange.start_after]
        exact hframed.leading
      · rw [Hunk.asRead, LineRange.start_after]
        refine hframed.trailing.imp_right fun hshort => ⟨hshort.1, ?_⟩
        rw [hshort.2, List.length_nil, Nat.add_zero]

theorem HunkLine.text_mem {line : HunkLine} {lines : List HunkLine} (h : line ∈ lines) :
    line.text ∈ oldTexts lines ∨ line.text ∈ newTexts lines := by
  by_cases hinsert : line.action = .insert
  · exact .inr (List.mem_map_of_mem (List.mem_filter.mpr ⟨h, by simp [hinsert]⟩))
  · exact .inl (List.mem_map_of_mem (List.mem_filter.mpr ⟨h, by simpa using hinsert⟩))

/-- The lines of the hunks are lines of the texts. -/
theorem Laid.text_mem {oldLine newLine : Nat} {old new : List (List Char)} {hunks : List Hunk}
    (h : Laid oldLine newLine old new hunks) :
    ∀ hunk ∈ hunks, ∀ line ∈ hunk.lines, line.text ∈ old ∨ line.text ∈ new := by
  induction h with
  | nil => simp
  | @cons oldLine newLine old new hunk hunks skipped hold hnew hframed hrest ih =>
      refine List.forall_mem_cons.mpr ⟨fun line hline => ?_, fun other hother line hline => ?_⟩
      · simp only [List.mem_append]
        exact (HunkLine.text_mem hline).imp (fun h => .inr (.inl h)) (fun h => .inr (.inl h))
      · simp only [List.mem_append]
        exact (ih other hother line hline).imp (fun h => .inr (.inr h)) (fun h => .inr (.inr h))

end ResourceLanguage.Diff
