import ResourceLanguage.Proofs.Glob.Spelling

/-!
The texts of the paths that match a pattern. Expanding a pattern from a base directory leaves out
the empty pieces of the base directory and a `.` in front of it, so the paths that match need not
begin with the texts of the base directory, though they lead into it.
-/

namespace ResourceLanguage

namespace Glob

open ResourceLanguage.Path

/-! ### Texts on the way -/

/-- The texts of a path that expanding comes to. The current directory has none. -/
def stem (path : Path) : List (List Char) := if isCurrent path then [] else path.texts

/-- Adds a piece to the texts of a path. An empty piece is left out, and so is a `.` in front. -/
def addText (texts : List (List Char)) (piece : List Char) : List (List Char) :=
  if piece = [] ∨ piece = ['.'] ∧ texts = [] then texts else texts ++ [piece]

theorem stem_of_notMem {piece : String} (hslash : '/' ∉ piece.toList) :
    stem piece = addText [] piece.toList := by
  have hcomponents := components_join_piece "" hslash
  have hjoin : join "" piece = piece := by simp [join, isAbsolute_of_notMem hslash]
  have hempty : components "" = [] := by decide
  rw [hjoin, hempty, List.nil_append] at hcomponents
  by_cases hdot : piece.toList = ['.']
  · have hpiece : piece = "." := String.toList_inj.mp hdot
    rw [hpiece]
    decide
  · have hcurrent : isCurrent piece = false := by
      rw [isCurrent, hcomponents, beq_eq_false_iff_ne]
      rw [Workspace.ofPiece?_of_ne_dot hdot]
      intro heq
      have hmem : Component.current ∈ stepsOf [piece.toList] := by
        rw [stepsOf_singleton, heq]
        exact List.mem_singleton_self _
      exact current_notMem_stepsOf _ hmem
    rw [stem, hcurrent, addText]
    by_cases hnil : piece = ""
    · rw [hnil]
      decide
    · have hne : piece.toList ≠ [] := fun h => hnil (String.toList_eq_nil_iff.mp h)
      rw [if_neg (by simp), texts_of_notMem hslash hnil, if_neg (by simp [hne, hdot])]
      rfl

theorem components_ne_nil {path : Path} (h : path ≠ "") : path.components ≠ [] := fun hnil =>
  h (eq_empty_of_located_eq_nil (List.map_eq_nil_iff.mp hnil))

theorem stem_childPath (path : Path) {piece : String} (hslash : '/' ∉ piece.toList) :
    stem (childPath path piece) = addText (stem path) piece.toList := by
  cases hcurrent : isCurrent path with
  | true =>
      rw [childPath, if_pos hcurrent, stem_of_notMem hslash, stem, if_pos hcurrent]
  | false =>
      rw [childPath, if_neg (by simp [hcurrent])]
      by_cases hempty : path = ""
      · have hjoin : join "" piece = piece := by simp [join, isAbsolute_of_notMem hslash]
        rw [hempty, hjoin, stem_of_notMem hslash]
        rfl
      -- Behind other pieces the path does not become the current directory.
      have hjoined : isCurrent (path.join piece) = false := by
        have hne := components_ne_nil hempty
        rw [isCurrent, beq_eq_false_iff_ne] at hcurrent ⊢
        rw [components_join_piece path hslash]
        intro heq
        rcases List.append_eq_singleton_iff.mp heq with ⟨hnil, -⟩ | ⟨hpath, -⟩
        · exact hne hnil
        · exact hcurrent hpath
      have htexts : path.texts ≠ [] := fun hnil => hempty (eq_empty_of_texts_eq_nil hnil)
      rw [stem, hjoined, stem, hcurrent, if_neg Bool.false_ne_true, if_neg Bool.false_ne_true,
        texts_join path (isAbsolute_of_notMem hslash), addText]
      by_cases hnil : piece = ""
      · rw [hnil, if_pos (.inl rfl)]
        exact List.append_nil _
      · have hne : piece.toList ≠ [] := fun h => hnil (String.toList_eq_nil_iff.mp h)
        rw [texts_of_notMem hslash hnil, if_neg (by simp [hne, htexts])]

theorem stem_foldl_childPath (path : Path) {pieces : List String}
    (hslash : ∀ piece ∈ pieces, '/' ∉ piece.toList) :
    stem (pieces.foldl childPath path) = (pieces.map String.toList).foldl addText (stem path) := by
  induction pieces generalizing path with
  | nil => rfl
  | cons piece pieces ih =>
      obtain ⟨hpiece, hpieces⟩ := List.forall_mem_cons.mp hslash
      rw [List.foldl_cons, ih _ hpieces, stem_childPath path hpiece]
      rfl

theorem foldl_addText_names (texts : List (List Char)) {names : List String}
    (hnames : ∀ name ∈ names, IsName name) :
    (names.map String.toList).foldl addText texts = texts ++ names.map String.toList := by
  induction names generalizing texts with
  | nil => exact (List.append_nil _).symm
  | cons name names ih =>
      obtain ⟨hname, hnames⟩ := List.forall_mem_cons.mp hnames
      have hadd : addText texts name.toList = texts ++ [name.toList] :=
        if_neg fun h => hname.notIdle (h.imp_right And.left)
      rw [List.map_cons, List.foldl_cons, hadd, ih _ hnames, List.append_assoc]
      rfl

/-- Adding pieces leaves out nothing that leads anywhere, and keeps no empty piece. -/
theorem exists_foldl_addText (texts pieces : List (List Char)) :
    ∃ kept, pieces.foldl addText texts = texts ++ kept ∧ [] ∉ kept ∧
      stepsOf kept = stepsOf pieces := by
  induction pieces generalizing texts with
  | nil => exact ⟨[], (List.append_nil _).symm, List.not_mem_nil, rfl⟩
  | cons piece pieces ih =>
      obtain ⟨kept, hfold, hkept, hsteps⟩ := ih (addText texts piece)
      rw [List.foldl_cons, hfold, ← List.singleton_append, stepsOf_append, addText]
      split
      · rename_i hleft
        have hidle : stepsOf [piece] = [] := by
          rcases hleft with rfl | ⟨rfl, -⟩ <;> rfl
        exact ⟨kept, rfl, hkept, by rw [hidle, hsteps, List.nil_append]⟩
      · rename_i hleft
        refine ⟨piece :: kept, List.append_assoc _ _ _, ?_, ?_⟩
        · rw [List.mem_cons, not_or]
          exact ⟨fun hnil => hleft (.inl hnil.symm), hkept⟩
        · rw [← List.singleton_append, stepsOf_append, hsteps]

/-! ### Base directories -/

/-- The texts with which the paths begin that match a pattern from a base directory. -/
def expandedTexts (base : Path) : List (List Char) :=
  if base.isAbsolute then base.texts.tail.foldl addText [[]] else base.texts.foldl addText []

theorem stem_expandedBase (base : Path) : stem (expandedBase base) = expandedTexts base := by
  have hstem (scope : Path) {texts : List (List Char)} (htexts : texts ⊆ base.texts) :
      stem ((texts.map String.ofList).foldl childPath scope) =
        texts.foldl addText (stem scope) := by
    rw [stem_foldl_childPath]
    · rw [map_toList_map_ofList]
    · intro piece hpiece
      obtain ⟨text, htext, rfl⟩ := List.mem_map.mp hpiece
      rw [String.toList_ofList]
      exact slash_notMem_of_mem_texts (htexts htext)
  rw [expandedBase, expandedTexts]
  split
  · exact hstem "/" (List.tail_subset _)
  · exact hstem "." (List.Subset.refl _)

/-- What is left out of the base directory makes no difference to where it leads. -/
theorem lead_expandedTexts (files : Workspace) (base : Path) :
    files.lead (expandedTexts base) = files.lead base.texts := by
  rw [expandedTexts]
  cases habsolute : base.isAbsolute with
  | true =>
      obtain ⟨front, hfront⟩ := exists_texts_of_isAbsolute habsolute
      obtain ⟨kept, hkept, -, hsteps⟩ := exists_foldl_addText [[]] front
      rw [hfront, if_pos rfl, List.tail_cons, hkept, List.singleton_append, Workspace.lead,
        Workspace.lead, ← List.singleton_append, stepsOf_append, hsteps, ← stepsOf_append]
      rfl
  | false =>
      obtain ⟨kept, hkept, hempty, hsteps⟩ := exists_foldl_addText [] base.texts
      have hhead : base.texts.head? ≠ some [] := by
        rw [Ne, head?_texts, habsolute]
        exact Bool.false_ne_true
      have hheadKept : kept.head? ≠ some [] := fun h => hempty (List.mem_of_mem_head? h)
      rw [if_neg Bool.false_ne_true, hkept, List.nil_append, Workspace.lead, Workspace.lead, hsteps,
        if_neg hhead, if_neg hheadKept]

/-! ### Plain patterns -/

/-- A pattern whose texts are names or stand for names. -/
structure IsPlain (entry : Path) : Prop where
  literal : ∀ text ∈ entry.texts, IsLiteral text → IsName (String.ofList text)
  special : ∀ text ∈ entry.texts, ∀ pattern ∈ (Pattern.parse (String.ofList text)).toOption,
    pattern.literal? = none → specialPaths "" pattern = []

instance : DecidablePred IsPlain := fun entry =>
  decidable_of_iff ((∀ text ∈ entry.texts, IsLiteral text → IsName (String.ofList text)) ∧
      ∀ text ∈ entry.texts, ∀ pattern ∈ (Pattern.parse (String.ofList text)).toOption,
        pattern.literal? = none → specialPaths "" pattern = [])
    ⟨fun ⟨literal, special⟩ => ⟨literal, special⟩, fun h => ⟨h.literal, h.special⟩⟩

theorem isAbsolute_of_nil_notMem {entry : Path} (h : [] ∉ entry.texts) :
    entry.isAbsolute = false := by
  rw [← Bool.not_eq_true, ← head?_texts]
  exact fun hhead => h (List.mem_of_mem_head? hhead)

/-- From a base directory without wildcards, a plain pattern leads to paths whose texts are those
that are left of the base directory and names after them. -/
theorem texts_of_mem_expand {files : Workspace} (named : files.WellNamed) {base entry : Path}
    (hbase : IsLiteral base.toList) (hplain : IsPlain entry) (hwild : isPattern entry = true)
    {paths : List Path} (hpaths : expand files (base.join entry) = .ok paths) {reached : Path}
    (h : reached ∈ paths) :
    ∃ names : Place, (∀ name ∈ names, IsName name) ∧
      reached.texts = expandedTexts base ++ names.map String.toList := by
  have hrelative : entry.isAbsolute = false := isAbsolute_of_nil_notMem fun hnil =>
    (hplain.literal [] hnil fun _ hc => absurd hc List.not_mem_nil).ne_empty rfl
  obtain ⟨pieces, rfl, hpieces, name, hmem, -⟩ :=
    exists_pieces_of_expand named hbase hrelative hwild hplain.special hpaths h
  have hnames : ∀ name ∈ pieces, IsName name := by
    intro piece hpiece
    rcases hpieces piece hpiece with hname | ⟨htext, hliteral⟩
    · exact hname
    · simpa using hplain.literal _ htext hliteral
  have hstem := stem_foldl_childPath (expandedBase base) fun piece hpiece =>
    (hnames piece hpiece).slash
  rw [stem_expandedBase, foldl_addText_names _ hnames, stem] at hstem
  refine ⟨pieces, hnames, ?_⟩
  split at hstem
  · -- Names were added, so the path is not the current directory.
    have hne : pieces ≠ [] := List.ne_nil_of_mem hmem
    have hnil := (List.append_eq_nil_iff.mp hstem.symm).2
    exact absurd (List.map_eq_nil_iff.mp hnil) hne
  · exact hstem

end Glob

end ResourceLanguage
