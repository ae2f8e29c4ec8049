import ResourceLanguage.Glob.Expand
import ResourceLanguage.Proofs.Path.Ancestors
import ResourceLanguage.Proofs.Path.Trail

/-!
The texts of a path, which are its pieces without the empty one after a slash at the end. Joining
paths puts their texts together. A path to a file is determined by its texts, and where a path leads
to can be read off them.
-/

namespace ResourceLanguage

open ResourceLanguage.Glob

namespace Path

/-! ### Pieces -/

theorem pieces_eq_splitOn (cs : List Char) : pieces cs = cs.splitOn '/' := by
  induction cs with
  | nil => rfl
  | cons c cs ih =>
      rw [pieces, List.splitOn, List.splitOnP_cons_eq_if_modifyHead, ← List.splitOn, ← ih]
      by_cases hslash : c = '/'
      · simp [hslash]
      · cases hpieces : pieces cs with
        | nil => exact absurd hpieces (pieces_ne_nil cs)
        | cons piece rest => simp [hslash]

theorem intercalate_pieces (cs : List Char) : ['/'].intercalate (pieces cs) = cs := by
  rw [pieces_eq_splitOn]
  exact List.intercalate_splitOn '/'

theorem pieces_injective : Function.Injective pieces :=
  Function.LeftInverse.injective intercalate_pieces

/-- The last piece is empty after a slash only. -/
theorem getLast?_pieces (cs : List Char) :
    (pieces cs).getLast? = some [] ↔ cs = [] ∨ cs.getLast? = some '/' := by
  constructor
  · intro h
    obtain ⟨front, hfront⟩ := List.getLast?_eq_some_iff.mp h
    by_cases hnil : front = []
    · subst hnil
      exact .inl (eq_nil_of_pieces_eq hfront)
    · have hpieces : pieces (['/'].intercalate front) = front := by
        rw [pieces_eq_splitOn]
        refine List.splitOn_intercalate '/' (fun piece hpiece hslash => ?_) hnil
        have hmem : piece ∈ pieces cs := hfront ▸ List.mem_append_left _ hpiece
        exact (mem_of_mem_pieces hmem hslash).2 rfl
      have hcs : cs = ['/'].intercalate front ++ ['/'] := by
        refine pieces_injective ?_
        rw [pieces_append_slash, hpieces, hfront]
        rfl
      right
      rw [hcs, List.getLast?_append]
      rfl
  · rintro (rfl | hslash)
    · rfl
    · obtain ⟨front, rfl⟩ := List.getLast?_eq_some_iff.mp hslash
      rw [pieces_append_slash, List.getLast?_append]
      rfl

/-! ### Texts -/

/-- The pieces of a path. A slash at the end adds none. -/
def texts (path : Path) : List (List Char) := componentTexts path.toList

theorem componentTexts_append_slash (cs ds : List Char) :
    componentTexts (cs ++ '/' :: ds) = pieces cs ++ componentTexts ds := by
  have hne := pieces_ne_nil ds
  simp only [componentTexts, pieces_append_slash, List.getLast?_append_of_ne_nil _ hne]
  split
  · exact List.dropLast_append_of_ne_nil hne
  · rfl

theorem componentTexts_cons_slash (cs : List Char) :
    componentTexts ('/' :: cs) = [] :: componentTexts cs :=
  componentTexts_append_slash [] cs

theorem componentTexts_of_getLast? {cs : List Char} (h : (pieces cs).getLast? ≠ some []) :
    componentTexts cs = pieces cs := if_neg h

theorem pieces_eq_componentTexts (cs : List Char) :
    pieces cs = componentTexts cs ∨ pieces cs = componentTexts cs ++ [[]] := by
  by_cases hlast : (pieces cs).getLast? = some []
  · obtain ⟨front, hfront⟩ := List.getLast?_eq_some_iff.mp hlast
    right
    rw [componentTexts, if_pos hlast, hfront, List.dropLast_concat]
  · exact .inl (componentTexts_of_getLast? hlast).symm

theorem mem_pieces_of_mem_texts {path : Path} {piece : List Char} (h : piece ∈ path.texts) :
    piece ∈ pieces path.toList := by
  rcases pieces_eq_componentTexts path.toList with hpieces | hpieces
  · rwa [hpieces]
  · rw [hpieces]
    exact List.mem_append_left _ h

theorem slash_notMem_of_mem_texts {path : Path} {text : List Char} (h : text ∈ path.texts) :
    '/' ∉ text :=
  fun hslash => (mem_of_mem_pieces (mem_pieces_of_mem_texts h) hslash).2 rfl

theorem map_toList_map_ofList (texts : List (List Char)) :
    (texts.map String.ofList).map String.toList = texts := by
  simp [Function.comp_def]

theorem mem_texts_of_ne_nil {path : Path} {piece : List Char} (h : piece ∈ pieces path.toList)
    (hne : piece ≠ []) : piece ∈ path.texts := by
  rcases pieces_eq_componentTexts path.toList with hpieces | hpieces
  · rwa [hpieces] at h
  · rw [hpieces, List.mem_append, List.mem_singleton] at h
    exact h.resolve_right hne

/-- A relative path that is joined to a path adds its texts. -/
theorem texts_join (path : Path) {inner : Path} (hinner : inner.isAbsolute = false) :
    (path.join inner).texts = path.texts ++ inner.texts := by
  rw [join, if_neg (by simp [hinner])]
  by_cases hempty : path.toList = []
  · obtain rfl := String.toList_eq_nil_iff.mp hempty
    simp [texts, componentTexts, pieces]
  by_cases hslash : path.toList.getLast? = some '/'
  · obtain ⟨front, hfront⟩ := List.getLast?_eq_some_iff.mp hslash
    have hpath : path.texts = pieces front ++ [] := by
      rw [texts, hfront]
      exact componentTexts_append_slash front []
    rw [if_pos (by simp [hslash]), hpath, List.append_nil, texts, String.toList_append, hfront,
      List.append_assoc]
    exact componentTexts_append_slash front inner.toList
  · have hlast : (pieces path.toList).getLast? ≠ some [] := fun h =>
      ((getLast?_pieces _).mp h).elim hempty hslash
    have hne : path ≠ "" := fun h => hempty (String.toList_eq_nil_iff.mpr h)
    rw [if_neg (by simp [hslash, hne]), texts, String.toList_append, String.toList_append,
      List.append_assoc, texts, componentTexts_of_getLast? hlast]
    exact componentTexts_append_slash path.toList inner.toList

theorem texts_of_notMem {piece : String} (hslash : '/' ∉ piece.toList) (hne : piece ≠ "") :
    texts piece = [piece.toList] := by
  have hpieces : pieces piece.toList = [piece.toList] := pieces_of_notMem hslash
  rw [texts, componentTexts_of_getLast?, hpieces]
  rw [hpieces, List.getLast?_singleton, Ne, Option.some_inj]
  exact fun hnil => hne (String.toList_eq_nil_iff.mp hnil)

theorem IsName.ne_empty {name : String} (h : IsName name) : name ≠ "" :=
  fun heq => h.notIdle (.inl (String.toList_eq_nil_iff.mpr heq))

theorem texts_foldl_join (path : Path) {names : List String}
    (hnames : ∀ name ∈ names, IsName name) :
    (names.foldl join path).texts = path.texts ++ names.map String.toList := by
  induction names generalizing path with
  | nil => exact (List.append_nil _).symm
  | cons name names ih =>
      obtain ⟨hname, hnames⟩ := List.forall_mem_cons.mp hnames
      rw [List.foldl_cons, ih _ hnames, texts_join path (isAbsolute_of_notMem hname.slash),
        texts_of_notMem hname.slash hname.ne_empty, List.append_assoc]
      rfl

theorem eq_empty_of_texts_eq_nil {path : Path} (h : path.texts = []) : path = "" := by
  rw [texts] at h
  rcases pieces_eq_componentTexts path.toList with hpieces | hpieces
  · exact absurd (hpieces.trans h) (pieces_ne_nil _)
  · rw [h] at hpieces
    exact String.toList_eq_nil_iff.mp (eq_nil_of_pieces_eq hpieces)

/-- Only a slash at the end is not told by the texts. -/
theorem eq_of_texts_eq {path other : Path} (h : path.texts = other.texts)
    (hpath : (pieces path.toList).getLast? ≠ some [])
    (hother : (pieces other.toList).getLast? ≠ some []) : path = other := by
  rw [texts, texts, componentTexts_of_getLast? hpath, componentTexts_of_getLast? hother] at h
  exact String.toList_inj.mp (pieces_injective h)

/-- An absolute path has an empty text in front. -/
theorem head?_texts (path : Path) : path.texts.head? = some [] ↔ path.isAbsolute = true := by
  by_cases hempty : path.toList = []
  · obtain rfl := String.toList_eq_nil_iff.mp hempty
    decide
  obtain ⟨c, cs, hcs⟩ := List.exists_cons_of_ne_nil hempty
  rw [texts, isAbsolute, hcs, List.head?_cons, beq_iff_eq, Option.some_inj]
  by_cases hslash : c = '/'
  · rw [hslash, componentTexts_cons_slash]
    exact iff_of_true rfl rfl
  · refine iff_of_false (fun hhead => ?_) hslash
    obtain ⟨rest, hrest⟩ := List.head?_eq_some_iff.mp hhead
    obtain ⟨piece, more, hpieces⟩ := List.exists_cons_of_ne_nil (pieces_ne_nil cs)
    have hfirst : pieces (c :: cs) = (c :: piece) :: more := by
      rw [pieces, if_neg hslash, hpieces]
    rcases pieces_eq_componentTexts (c :: cs) with heq | heq
    · rw [hfirst, hrest] at heq
      cases heq
    · rw [hfirst, hrest] at heq
      cases heq

theorem exists_texts_of_isAbsolute {path : Path} (h : path.isAbsolute = true) :
    ∃ front, path.texts = [] :: front :=
  List.head?_eq_some_iff.mp (path.head?_texts.mpr h)

theorem stepsOf_texts (path : Path) : stepsOf path.texts = stepsOf (pieces path.toList) := by
  rcases pieces_eq_componentTexts path.toList with hpieces | hpieces
  · rw [hpieces, texts]
  · rw [hpieces, stepsOf_append, texts]
    exact (List.append_nil _).symm

theorem stepsOf_names {names : List String} (hnames : ∀ name ∈ names, IsName name) :
    stepsOf (names.map String.toList) = names.map .name := by
  induction names with
  | nil => rfl
  | cons name names ih =>
      obtain ⟨hname, hnames⟩ := List.forall_mem_cons.mp hnames
      rw [List.map_cons, ← List.singleton_append, stepsOf_append, stepsOf_singleton,
        ofPiece?_of_isName hname, ih hnames]
      rfl

end Path

namespace Workspace

open ResourceLanguage.Path

def lead (files : Workspace) (texts : List (List Char)) : Place :=
  (stepsOf texts).foldl enter (if texts.head? = some [] then [] else files.current)

theorem eq_lead_of_resolve {files : Workspace} {path : Path} {place : Place}
    (h : files.resolve path = .ok place) : place = files.lead path.texts := by
  rw [eq_foldl_enter_of_follow (resolve_eq_ok_iff.mp h).2, lead, stepsOf_texts, start]
  simp only [head?_texts]
  rfl

/-- Names at the end of a path lead down. -/
theorem lead_append_names (files : Workspace) (texts : List (List Char)) {names : Place}
    (hnames : ∀ name ∈ names, IsName name) :
    files.lead (texts ++ names.map String.toList) = files.lead texts ++ names := by
  have hhead : (texts ++ names.map String.toList).head? = some [] ↔ texts.head? = some [] := by
    cases texts with
    | nil =>
        refine iff_of_false (fun hhead => ?_) (by simp)
        obtain ⟨name, hname, hnil⟩ := List.mem_map.mp (List.mem_of_mem_head? hhead)
        exact (hnames name hname).ne_empty (String.toList_eq_nil_iff.mp hnil)
    | cons first texts => rfl
  rw [lead, stepsOf_append, stepsOf_names hnames, List.foldl_append, foldl_enter_names, lead]
  simp only [hhead]

/-- A path to a file has no slash at the end. -/
theorem getLast?_pieces_of_resolve {files : Workspace} {path : Path} {place : Place}
    {content : List UInt8} (h : files.resolve path = .ok place)
    (hfile : files.entry? place = some (.file content)) :
    (pieces path.toList).getLast? ≠ some [] := by
  intro hlast
  obtain ⟨front, hfront⟩ := List.getLast?_eq_some_iff.mp hlast
  have hfollow := (resolve_eq_ok_iff.mp h).2
  rw [hfront, follow_append_eq_ok_iff] at hfollow
  obtain ⟨middle, -, hfollow⟩ := hfollow
  have hdirectory := hasDirectory_of_follow (List.cons_ne_nil _ _) hfollow
  obtain rfl : place = middle := eq_of_follow_idle (fun piece hpiece =>
    .inl (List.mem_singleton.mp hpiece)) hfollow
  rw [hasDirectory, hfile] at hdirectory
  cases hdirectory

end Workspace

end ResourceLanguage
