import Mathlib.Data.List.Basic
import ResourceLanguage.Fix.Restore
import ResourceLanguage.Proofs.Workspace

/-!
Paths and the pieces between their slashes. The directory of a path leads to where the path leads
without its last name, and a name joined to a path leads one step further.
-/

namespace ResourceLanguage

namespace Path

/-! ### Pieces -/

theorem pieces_ne_nil (cs : List Char) : pieces cs ≠ [] := by
  cases cs with
  | nil => exact List.cons_ne_nil _ _
  | cons c cs =>
      rw [pieces]
      split
      · exact List.cons_ne_nil _ _
      · split <;> exact List.cons_ne_nil _ _

theorem pieces_append_slash (cs ds : List Char) :
    pieces (cs ++ '/' :: ds) = pieces cs ++ pieces ds := by
  induction cs with
  | nil => simp [pieces]
  | cons c cs ih =>
      rw [List.cons_append, pieces, pieces, ih]
      split
      · rfl
      · cases hcs : pieces cs with
        | nil => exact absurd hcs (pieces_ne_nil cs)
        | cons piece rest => rfl

theorem pieces_of_notMem {cs : List Char} (h : '/' ∉ cs) : pieces cs = [cs] := by
  induction cs with
  | nil => rfl
  | cons c cs ih =>
      rw [List.mem_cons, not_or] at h
      rw [pieces, if_neg (Ne.symm h.1), ih h.2]

/-- The characters of the pieces are those of the text without its slashes. -/
theorem mem_flatten_pieces {cs : List Char} {c : Char} :
    c ∈ (pieces cs).flatten ↔ c ∈ cs ∧ c ≠ '/' := by
  induction cs with
  | nil => simp [pieces]
  | cons first cs ih =>
      rw [pieces]
      split
      · rename_i hslash
        rw [List.flatten_cons, List.nil_append, ih, hslash, List.mem_cons]
        constructor
        · rintro ⟨hmem, hne⟩
          exact ⟨.inr hmem, hne⟩
        · rintro ⟨hmem, hne⟩
          exact ⟨hmem.resolve_left hne, hne⟩
      · rename_i hslash
        split
        · rename_i hnil
          exact absurd hnil (pieces_ne_nil cs)
        · rename_i piece rest hpieces
          rw [hpieces, List.flatten_cons] at ih
          rw [List.flatten_cons, List.cons_append, List.mem_cons, List.mem_cons, ih]
          constructor
          · rintro (rfl | ⟨hmem, hne⟩)
            · exact ⟨.inl rfl, hslash⟩
            · exact ⟨.inr hmem, hne⟩
          · rintro ⟨rfl | hmem, hne⟩
            · exact .inl rfl
            · exact .inr ⟨hmem, hne⟩

theorem mem_of_mem_pieces {cs piece : List Char} (hpiece : piece ∈ pieces cs) {c : Char}
    (hc : c ∈ piece) : c ∈ cs ∧ c ≠ '/' :=
  mem_flatten_pieces.mp (List.mem_flatten_of_mem hpiece hc)

/-- The number of characters before the piece after some pieces. -/
def width (pieces : List (List Char)) : Nat := pieces.flatten.length + pieces.length

@[simp] theorem width_nil : width [] = 0 := rfl

@[simp] theorem width_cons (piece : List Char) (pieces : List (List Char)) :
    width (piece :: pieces) = piece.length + 1 + width pieces := by
  simp only [width, List.flatten_cons, List.length_append, List.length_cons]
  omega

/-- A text that is cut at the end of a piece keeps the pieces up to there. -/
theorem pieces_take {cs piece : List Char} {front back : List (List Char)}
    (h : pieces cs = front ++ piece :: back) :
    pieces (cs.take (width front + piece.length)) = front ++ [piece] := by
  induction cs generalizing front piece with
  | nil =>
      cases front with
      | nil =>
          obtain ⟨rfl, rfl⟩ := List.cons.inj h
          rfl
      | cons first front => simp [pieces] at h
  | cons c cs ih =>
      rw [pieces] at h
      split at h
      · rename_i hc
        cases front with
        | nil =>
            obtain ⟨rfl, rfl⟩ := List.cons.inj h
            rfl
        | cons first front =>
            obtain ⟨rfl, htail⟩ := List.cons.inj h
            have hwidth : width ([] :: front) + piece.length = width front + piece.length + 1 := by
              simp only [width_cons, List.length_nil]
              omega
            rw [hwidth, List.take_succ_cons, pieces, if_pos hc, ih htail]
            rfl
      · rename_i hc
        cases hcs : pieces cs with
        | nil => exact absurd hcs (pieces_ne_nil cs)
        | cons inner rest =>
            rw [hcs] at h ih
            cases front with
            | nil =>
                obtain ⟨rfl, rfl⟩ := List.cons.inj h
                have hinner := ih (List.nil_append _).symm
                rw [width_nil, Nat.zero_add] at hinner ⊢
                rw [List.length_cons, List.take_succ_cons, pieces, if_neg hc, hinner]
                rfl
            | cons first front =>
                obtain ⟨rfl, rfl⟩ := List.cons.inj h
                have hwidth : width ((c :: inner) :: front) + piece.length =
                    width (inner :: front) + piece.length + 1 := by
                  simp only [width_cons, List.length_cons]
                  omega
                rw [hwidth, List.take_succ_cons, pieces, if_neg hc, ih rfl]
                rfl

/-! ### Components -/

/-- Pieces that spell no component, unless a `.` stands in front of all. -/
def IsIdle (piece : List Char) : Prop := piece = [] ∨ piece = ['.']

instance : DecidablePred IsIdle := fun _ => inferInstanceAs (Decidable (_ ∨ _))

theorem isIdle_of_ofPiece?_eq_none {isFirst : Bool} {piece : List Char}
    (h : Component.ofPiece? isFirst piece = none) : IsIdle piece := by
  unfold Component.ofPiece? at h
  split at h
  · exact .inl rfl
  · exact .inr rfl
  · cases h
  · cases h

theorem length_pos_of_ofPiece?_eq_some {isFirst : Bool} {piece : List Char} {component : Component}
    (h : Component.ofPiece? isFirst piece = some component) : 0 < piece.length := by
  cases piece with
  | nil => cases h
  | cons c piece => exact Nat.succ_pos _

theorem isIdle_of_locate_eq_nil {start : Nat} {pieces : List (List Char)}
    (h : locate start pieces = []) : ∀ piece ∈ pieces, IsIdle piece := by
  induction pieces generalizing start with
  | nil => nofun
  | cons first pieces ih =>
      rw [locate] at h
      split at h
      · cases h
      · rename_i hnone
        exact List.forall_mem_cons.mpr ⟨isIdle_of_ofPiece?_eq_none hnone, ih h⟩

theorem of_ofPiece?_eq_name {isFirst : Bool} {piece : List Char} {text : String}
    (h : Component.ofPiece? isFirst piece = some (.name text)) :
    ¬IsIdle piece ∧ piece ≠ ['.', '.'] ∧ text = String.ofList piece := by
  unfold Component.ofPiece? at h
  split at h
  · cases h
  · cases isFirst <;> cases h
  · cases h
  · rename_i hnil hdot hparent
    cases h
    exact ⟨not_or.mpr ⟨hnil, hdot⟩, hparent, rfl⟩

/-- A component of some pieces, with the pieces around the one that spells it. -/
theorem exists_of_locate_eq_append_cons {start stop : Nat} {pieces : List (List Char)}
    {front back : List (Component × Nat)} {component : Component}
    (h : locate start pieces = front ++ (component, stop) :: back) :
    ∃ before piece after isFirst, pieces = before ++ piece :: after ∧
      locate start before = front ∧
      locate start (before ++ [piece]) = front ++ [(component, stop)] ∧
      stop = start + (width before + piece.length) ∧
      Component.ofPiece? isFirst piece = some component ∧ locate (stop + 1) after = back := by
  induction pieces generalizing start front with
  | nil => simp [locate] at h
  | cons first pieces ih =>
      rw [locate] at h
      split at h
      · rename_i found hfound
        cases front with
        | nil =>
            obtain ⟨hhead, hback⟩ := List.cons.inj h
            obtain ⟨rfl, rfl⟩ := Prod.mk.inj hhead
            refine ⟨[], first, pieces, _, rfl, rfl, ?_, ?_, hfound, hback⟩
            · rw [List.nil_append, locate, hfound]
              rfl
            · rw [width_nil, Nat.zero_add]
        | cons other front =>
            obtain ⟨rfl, htail⟩ := List.cons.inj h
            obtain ⟨before, piece, after, isFirst, rfl, hfront, hpart, hstop, hpiece, hafter⟩ :=
              ih htail
            refine ⟨first :: before, piece, after, isFirst, rfl, ?_, ?_, ?_, hpiece, hafter⟩
            · rw [locate, hfound, ← hfront]
            · rw [List.cons_append, locate, hfound, hpart]
              rfl
            · rw [hstop, width_cons]
              omega
      · rename_i hnone
        obtain ⟨before, piece, after, isFirst, rfl, hfront, hpart, hstop, hpiece, hafter⟩ := ih h
        refine ⟨first :: before, piece, after, isFirst, rfl, ?_, ?_, ?_, hpiece, hafter⟩
        · rw [locate, hnone]
          exact hfront
        · rw [List.cons_append, locate, hnone]
          exact hpart
        · rw [hstop, width_cons]
          omega

/-- The last of the components of some pieces, with the pieces around it. -/
theorem exists_of_locate_eq_append {start stop : Nat} {pieces : List (List Char)}
    {front : List (Component × Nat)} {component : Component}
    (h : locate start pieces = front ++ [(component, stop)]) :
    ∃ before piece after isFirst, pieces = before ++ piece :: after ∧
      locate start before = front ∧ stop = start + (width before + piece.length) ∧
      Component.ofPiece? isFirst piece = some component ∧ ∀ idle ∈ after, IsIdle idle := by
  obtain ⟨before, piece, after, isFirst, hpieces, hfront, -, hstop, hpiece, hafter⟩ :=
    exists_of_locate_eq_append_cons h
  exact ⟨before, piece, after, isFirst, hpieces, hfront, hstop, hpiece,
    isIdle_of_locate_eq_nil hafter⟩

/-- The components of a path are those of its pieces, after the root if it has one. -/
theorem located_eq (path : Path) :
    path.located =
      (if path.isAbsolute then [(Component.root, 1)] else []) ++ locate 0 (pieces path.toList) := by
  rw [located, isAbsolute]
  split
  · rename_i cs hcs
    rw [hcs]
    simp [pieces, locate, Component.ofPiece?]
  · rename_i hrelative
    cases hlist : path.toList with
    | nil => rfl
    | cons c cs =>
        have hc : c ≠ '/' := by
          rintro rfl
          exact hrelative cs hlist
        simp [hc]

theorem exists_locate_of_fileName? {path : Path} {name : String} (h : path.fileName? = some name) :
    ∃ front stop, locate 0 (pieces path.toList) = front ++ [(.name name, stop)] := by
  rw [fileName?, components, located_eq] at h
  rcases List.eq_nil_or_concat (locate 0 (pieces path.toList)) with hnil | ⟨front, last, hlast⟩
  · rw [hnil] at h
    cases habsolute : path.isAbsolute <;> simp [habsolute] at h
  · rw [hlast, List.concat_eq_append] at h ⊢
    obtain ⟨component, stop⟩ := last
    cases component with
    | name text =>
        simp only [List.map_append, List.map_cons, List.map_nil, List.getLast?_append,
          List.getLast?_singleton, Option.some_or, Option.some_inj] at h
        exact ⟨front, stop, by rw [h]⟩
    | _ => simp at h

/-- The directory of a path to a name ends where the component before the name does. -/
theorem directoryOf_of_locate {path : Path} {front : List (Component × Nat)} {component : Component}
    {name : String} {stop stop' : Nat}
    (h : locate 0 (pieces path.toList) = front ++ [(component, stop), (.name name, stop')])
    (hstop : 0 < stop) : directoryOf path = String.ofList (path.toList.take stop) := by
  have hparent : path.parent? = some (String.ofList (path.toList.take stop)) := by
    rw [parent?, located_eq, h]
    simp
  have hne : path.toList ≠ [] := by
    intro hnil
    rw [hnil] at h
    simp [pieces, locate, Component.ofPiece?] at h
  obtain ⟨c, cs, hcs⟩ := List.exists_cons_of_ne_nil hne
  obtain ⟨n, rfl⟩ := Nat.exists_eq_succ_of_ne_zero (Nat.ne_of_gt hstop)
  rw [directoryOf, hparent]
  simp [hcs]

theorem directoryOf_of_locate_singleton {path : Path} {name : String} {stop : Nat}
    (h : locate 0 (pieces path.toList) = [(.name name, stop)]) :
    directoryOf path = if path.isAbsolute then "/" else "." := by
  cases habsolute : path.isAbsolute with
  | false =>
      have hparent : path.parent? = some "" := by
        rw [parent?, located_eq, h, habsolute]
        rfl
      rw [directoryOf, hparent]
      rfl
  | true =>
      obtain ⟨cs, hcs⟩ := List.head?_eq_some_iff.mp (beq_iff_eq.mp habsolute)
      have hparent : path.parent? = some "/" := by
        rw [parent?, located_eq, h, habsolute, hcs]
        rfl
      rw [directoryOf, hparent]
      rfl

/-! ### Names joined to a path -/

/-- A text that a path can have as a name. -/
structure IsName (name : String) : Prop where
  notIdle : ¬IsIdle name.toList
  notParent : name.toList ≠ ['.', '.']
  slash : '/' ∉ name.toList

instance (name : String) : Decidable (IsName name) :=
  decidable_of_iff (¬IsIdle name.toList ∧ name.toList ≠ ['.', '.'] ∧ '/' ∉ name.toList)
    ⟨fun ⟨notIdle, notParent, slash⟩ => ⟨notIdle, notParent, slash⟩,
      fun h => ⟨h.notIdle, h.notParent, h.slash⟩⟩

theorem isAbsolute_of_notMem {name : String} (h : '/' ∉ name.toList) : isAbsolute name = false := by
  rw [isAbsolute, beq_eq_false_iff_ne]
  exact fun hhead => h (List.mem_of_mem_head? hhead)

/-- A relative path that is joined to a path adds its pieces. The empty piece after a slash at the
end of the path goes. -/
theorem pieces_join_of_relative {path : Path} (hpath : path.toList ≠ []) {inner : Path}
    (hinner : inner.isAbsolute = false) :
    ∃ front, pieces (path.join inner).toList = front ++ pieces inner.toList ∧
      (pieces path.toList = front ∨ pieces path.toList = front ++ [[]]) ∧
      (path.join inner).toList.head? = path.toList.head? := by
  have hempty : path.isEmpty = false := by
    cases h : path.isEmpty with
    | false => rfl
    | true => simp_all
  cases hlast : path.toList.getLast? == some '/' with
  | true =>
      have hjoin : (path.join inner).toList = path.toList ++ inner.toList := by
        simp [join, hinner, hlast]
      obtain ⟨front, hfront⟩ := List.getLast?_eq_some_iff.mp (beq_iff_eq.mp hlast)
      refine ⟨pieces front, ?_, .inr ?_, ?_⟩
      · rw [hjoin, hfront, List.append_assoc, List.singleton_append, pieces_append_slash]
      · rw [hfront, pieces_append_slash]
        rfl
      · rw [hjoin, List.head?_append_of_ne_nil _ hpath]
  | false =>
      have hjoin : (path.join inner).toList = path.toList ++ '/' :: inner.toList := by
        simp [join, hinner, hlast, hempty]
      refine ⟨pieces path.toList, ?_, .inl rfl, ?_⟩
      · rw [hjoin, pieces_append_slash]
      · rw [hjoin, List.head?_append_of_ne_nil _ hpath]

theorem pieces_join {path : Path} (hpath : path.toList ≠ []) {name : String}
    (hname : '/' ∉ name.toList) :
    ∃ front, pieces (path.join name).toList = front ++ [name.toList] ∧
      (pieces path.toList = front ∨ pieces path.toList = front ++ [[]]) ∧
      (path.join name).toList.head? = path.toList.head? := by
  rw [← pieces_of_notMem hname]
  exact pieces_join_of_relative hpath (isAbsolute_of_notMem hname)

theorem toList_join_ne_nil {path : Path} (hpath : path.toList ≠ []) {name : String}
    (hname : '/' ∉ name.toList) : (path.join name).toList ≠ [] := by
  obtain ⟨_, _, _, hhead⟩ := pieces_join hpath hname
  intro hnil
  rw [hnil, List.head?_nil, eq_comm, List.head?_eq_none_iff] at hhead
  exact hpath hhead

theorem locate_append (start : Nat) (front back : List (List Char)) :
    locate start (front ++ back) = locate start front ++ locate (start + width front) back := by
  induction front generalizing start with
  | nil => rfl
  | cons piece front ih =>
      rw [List.cons_append, locate, locate, ih]
      have hwidth : start + piece.length + 1 + width front = start + width (piece :: front) := by
        simp [width]
        omega
      rw [hwidth]
      split <;> rfl

theorem ofPiece?_of_isName {name : String} (h : IsName name) (isFirst : Bool) :
    Component.ofPiece? isFirst name.toList = some (.name name) := by
  unfold Component.ofPiece?
  split
  · exact absurd (.inl ‹_›) h.notIdle
  · exact absurd (.inr ‹_›) h.notIdle
  · exact absurd ‹_› h.notParent
  · rw [String.ofList_toList]

theorem eq_nil_of_pieces_eq {cs : List Char} (h : pieces cs = [[]]) : cs = [] := by
  cases cs with
  | nil => rfl
  | cons c cs =>
      rw [pieces] at h
      split at h
      · exact absurd (List.cons.inj h).2 (pieces_ne_nil cs)
      · split at h <;> cases h

theorem ne_nil_of_pieces_eq {path : Path} (hpath : path.toList ≠ []) {front : List (List Char)}
    (h : pieces path.toList = front ∨ pieces path.toList = front ++ [[]]) : front ≠ [] := by
  rintro rfl
  rcases h with h | h
  · exact pieces_ne_nil _ h
  · exact hpath (eq_nil_of_pieces_eq h)

/-- A piece that is joined to a path adds the component that it spells. -/
theorem components_join_piece (path : Path) {piece : String} (hpiece : '/' ∉ piece.toList) :
    (path.join piece).components =
      path.components ++ (Component.ofPiece? path.isEmpty piece.toList).toList := by
  have hlocate (start : Nat) : (locate start [piece.toList]).map (·.1) =
      (Component.ofPiece? (start = 0) piece.toList).toList := by
    rw [locate]
    split <;> simp_all [locate]
  by_cases hpath : path.toList = []
  · obtain rfl := String.toList_eq_nil_iff.mp hpath
    have hrelative : isAbsolute piece = false := isAbsolute_of_notMem hpiece
    have hjoined : join "" piece = piece := by simp [join, hrelative]
    rw [hjoined, components, located_eq, hrelative, pieces_of_notMem hpiece]
    exact hlocate 0
  · obtain ⟨front, hjoined, hpieces, hhead⟩ := pieces_join hpath hpiece
    have hempty : locate (width front) [[]] = [] := rfl
    have hfront : locate 0 (pieces path.toList) = locate 0 front := by
      rcases hpieces with hpieces | hpieces
      · rw [hpieces]
      · rw [hpieces, locate_append, Nat.zero_add, hempty, List.append_nil]
    have hwidth : width front ≠ 0 := by
      obtain ⟨first, rest, rfl⟩ := List.exists_cons_of_ne_nil (ne_nil_of_pieces_eq hpath hpieces)
      rw [width_cons]
      omega
    have hisEmpty : path.isEmpty = decide (0 + width front = 0) := by
      have hne : path ≠ "" := fun heq => hpath (String.toList_eq_nil_iff.mpr heq)
      simp [hwidth, hne]
    rw [components, components, located_eq, located_eq, hfront, hjoined, locate_append, isAbsolute,
      isAbsolute, hhead, hisEmpty, ← hlocate, ← List.append_assoc, List.map_append]

/-- A name that is joined to a path adds a component. -/
theorem components_join (path : Path) {name : String} (hname : IsName name) :
    (path.join name).components = path.components ++ [.name name] := by
  rw [components_join_piece path hname.slash, ofPiece?_of_isName hname]
  rfl

theorem components_foldl_join (path : Path) {names : List String}
    (hnames : ∀ name ∈ names, IsName name) :
    (names.foldl join path).components = path.components ++ names.map .name := by
  induction names generalizing path with
  | nil => exact (List.append_nil _).symm
  | cons name names ih =>
      obtain ⟨hname, hnames⟩ := List.forall_mem_cons.mp hnames
      rw [List.foldl_cons, ih _ hnames, components_join path hname, List.append_assoc]
      rfl

theorem fileName?_join (path : Path) {name : String} (hname : IsName name) :
    (path.join name).fileName? = some name := by
  rw [fileName?, components_join path hname, List.getLast?_append]
  rfl

theorem isName_of_fileName? {path : Path} {name : String} (h : path.fileName? = some name) :
    IsName name := by
  obtain ⟨front, stop, hlocate⟩ := exists_locate_of_fileName? h
  obtain ⟨before, piece, after, isFirst, hpieces, -, -, hpiece, -⟩ :=
    exists_of_locate_eq_append hlocate
  obtain ⟨hidle, hparent, rfl⟩ := of_ofPiece?_eq_name hpiece
  refine ⟨?_, ?_, ?_⟩
  · rwa [String.toList_ofList]
  · rwa [String.toList_ofList]
  · rw [String.toList_ofList]
    have hmem : piece ∈ pieces path.toList :=
      hpieces ▸ List.mem_append_right before List.mem_cons_self
    exact fun hslash => (mem_of_mem_pieces hmem hslash).2 rfl

/-- A path with a slash in it is joined part by part. -/
theorem join_append_of_slash (path front : Path) {name : String} (hname : '/' ∉ name.toList) :
    path.join (front ++ "/" ++ name) = (path.join (front ++ "/")).join name := by
  have habsolute : isAbsolute (front ++ "/" ++ name) = isAbsolute (front ++ "/") := by
    simp only [isAbsolute, String.toList_append]
    rw [List.head?_append_of_ne_nil _ (by simp)]
  have hlast : (path.join (front ++ "/")).toList.getLast? = some '/' := by
    rw [join]
    split
    · rw [String.toList_append, List.getLast?_append]
      rfl
    · split <;> simp only [String.toList_append, List.getLast?_append] <;> rfl
  have hjoin : (path.join (front ++ "/")).join name = path.join (front ++ "/") ++ name := by
    rw [join, isAbsolute_of_notMem hname, hlast]
    simp
  rw [hjoin, join, join, habsolute]
  split
  · rfl
  · split <;> simp only [String.append_assoc]

/-- Whatever stands in front of it, a suffix without slashes is one of the last component. -/
theorem exists_join_eq (path front : Path) {suffix : String} (hsuffix : '/' ∉ suffix.toList) :
    ∃ outer : Path, ∃ name : String, '/' ∉ name.toList ∧
      path.join (front ++ suffix) = outer.join (name ++ suffix) := by
  by_cases hslash : '/' ∈ front.toList
  · obtain ⟨back, before, hsplit, hback⟩ :=
      List.eq_append_cons_of_mem (List.mem_reverse.mpr hslash)
    have hfront : front = String.ofList before.reverse ++ "/" ++ String.ofList back.reverse := by
      apply String.toList_inj.mp
      rw [← List.reverse_inj, hsplit]
      simp
    have hname : '/' ∉ (String.ofList back.reverse ++ suffix).toList := by
      simp [hback, hsuffix]
    refine ⟨path.join (String.ofList before.reverse ++ "/"), String.ofList back.reverse,
      by simpa using hback, ?_⟩
    rw [hfront, String.append_assoc, join_append_of_slash path _ hname]
  · exact ⟨path, front, hslash, rfl⟩

/-! ### Extensions -/

/-- A name with an extension is its stem, a dot and the extension. -/
theorem eq_of_splitExtension {name stem extension : String}
    (h : splitExtension name = (stem, some extension)) : name = stem ++ "." ++ extension := by
  unfold splitExtension at h
  dsimp only at h
  split at h
  · rename_i dot rest hdrop
    split at h
    · cases h
    · cases h
      have hdot : dot = '.' := by
        have := List.head?_dropWhile_not (· != '.') name.toList.reverse
        simpa [hdrop] using this
      have hsplit := List.takeWhile_append_dropWhile (p := (· != '.')) (l := name.toList.reverse)
      rw [hdrop, hdot] at hsplit
      have hname := congrArg List.reverse hsplit
      rw [List.reverse_reverse] at hname
      refine String.toList_inj.mp (hname.symm.trans ?_)
      simp
  · cases h

theorem stem_ne_of_splitExtension {name stem extension : String}
    (h : splitExtension name = (stem, some extension)) : stem ≠ "" := by
  unfold splitExtension at h
  dsimp only at h
  split at h
  · rename_i dot rest hdrop
    split at h
    · cases h
    · rename_i hrest
      cases h
      intro hempty
      have hnil : rest.reverse = [] := by simpa using congrArg String.toList hempty
      exact hrest (List.isEmpty_iff.mpr (List.reverse_eq_nil_iff.mp hnil))
  · cases h

theorem splitExtension_append {stem extension : String} (hstem : stem.toList ≠ [])
    (hextension : '.' ∉ extension.toList) :
    splitExtension (stem ++ "." ++ extension) = (stem, some extension) := by
  have hreversed : (stem ++ "." ++ extension).toList.reverse =
      extension.toList.reverse ++ '.' :: stem.toList.reverse := by
    simp
  have hall : ∀ c ∈ extension.toList.reverse, (c != '.') = true := by
    intro c hc
    rw [bne_iff_ne]
    rintro rfl
    exact hextension (List.mem_reverse.mp hc)
  unfold splitExtension
  dsimp only
  rw [hreversed, List.dropWhile_append_of_pos hall, List.takeWhile_append_of_pos hall]
  simp [hstem]

/-- The file name of a path, put together from its stem and its extension. -/
theorem fileName?_of_extension? {path : Path} {stem extension : String}
    (hstem : path.fileStem? = some stem) (hextension : path.extension? = some extension) :
    path.fileName? = some (stem ++ "." ++ extension) := by
  rw [fileStem?, Option.map_eq_some_iff] at hstem
  obtain ⟨name, hname, rfl⟩ := hstem
  rw [extension?, hname, Option.bind_some] at hextension
  rw [hname, ← eq_of_splitExtension (Prod.ext rfl hextension)]

theorem stem_ne_of_extension? {path : Path} {stem extension : String}
    (hstem : path.fileStem? = some stem) (hextension : path.extension? = some extension) :
    stem ≠ "" := by
  rw [fileStem?, Option.map_eq_some_iff] at hstem
  obtain ⟨name, hname, rfl⟩ := hstem
  rw [extension?, hname, Option.bind_some] at hextension
  exact stem_ne_of_splitExtension (Prod.ext rfl hextension)

end Path

namespace Workspace

/-- Every name in the tree is one that a path can have. -/
def WellNamed (files : Workspace) : Prop :=
  ∀ found ∈ files.entries, ∀ name ∈ found.1, Path.IsName name

instance : DecidablePred WellNamed := fun files =>
  inferInstanceAs (Decidable (∀ found ∈ files.entries, ∀ name ∈ found.1, Path.IsName name))

/-! ### Following pieces -/

theorem follow_append (files : Workspace) (place : Place) (front back : List (List Char)) :
    files.follow place (front ++ back) =
      match files.follow place front with
      | .ok middle => files.follow middle back
      | .error error => .error error := by
  induction front generalizing place with
  | nil => rfl
  | cons piece front ih =>
      simp only [List.cons_append, follow, ih]
      split
      · split
        · rfl
        · split
          · rfl
          · split <;> rfl
      · rfl

theorem follow_append_eq_ok_iff {files : Workspace} {place stop : Place}
    {front back : List (List Char)} :
    files.follow place (front ++ back) = .ok stop ↔
      ∃ middle, files.follow place front = .ok middle ∧ files.follow middle back = .ok stop := by
  rw [follow_append]
  cases files.follow place front with
  | error error => simp
  | ok middle => simp

/-- Idle pieces lead nowhere else. -/
theorem eq_of_follow_idle {files : Workspace} {place stop : Place} {pieces : List (List Char)}
    (hidle : ∀ piece ∈ pieces, Path.IsIdle piece) (h : files.follow place pieces = .ok stop) :
    stop = place := by
  induction pieces with
  | nil => exact (Except.ok.inj h).symm
  | cons piece pieces ih =>
      obtain ⟨hpiece, hpieces⟩ := List.forall_mem_cons.mp hidle
      rw [Path.IsIdle] at hpiece
      rw [follow, if_pos hpiece] at h
      split at h
      · exact ih hpieces h
      · cases h

/-- A name leads from a directory to an entry in it. -/
theorem follow_name_eq_ok_iff {files : Workspace} {place stop : Place} {name : List Char}
    (hidle : ¬Path.IsIdle name) (hparent : name ≠ ['.', '.']) :
    files.follow place [name] = .ok stop ↔
      files.hasDirectory place = true ∧
        (files.entry? (place ++ [String.ofList name])).isSome = true ∧
        stop = place ++ [String.ofList name] := by
  rw [Path.IsIdle] at hidle
  rw [follow, if_neg hidle, if_neg hparent]
  cases files.hasDirectory place with
  | false => simp
  | true =>
      dsimp only
      cases hentry : (files.entry? (place ++ [String.ofList name])).isSome with
      | false => simp
      | true => simp [follow, eq_comm]

/-! ### Directories of paths -/

theorem resolve_eq_ok_iff {files : Workspace} {path : Path} {place : Place} :
    files.resolve path = .ok place ↔
      path.toList ≠ [] ∧ files.follow (files.start path) (Path.pieces path.toList) = .ok place := by
  rw [resolve]
  cases hempty : path.isEmpty with
  | true => simp_all
  | false => simp_all

theorem resolve_dot {files : Workspace} (h : files.hasDirectory files.current = true) :
    files.resolve "." = .ok files.current := by
  have hpieces : Path.pieces ".".toList = [['.']] := by decide
  have hstart : files.start "." = files.current := rfl
  refine resolve_eq_ok_iff.mpr ⟨by decide, ?_⟩
  rw [hpieces, hstart, follow, if_pos h, if_pos (.inr rfl)]
  rfl

theorem start_eq_of_head? {files : Workspace} {path path' : Path}
    (h : path.toList.head? = path'.toList.head?) : files.start path = files.start path' := by
  rw [start, start, Path.isAbsolute, Path.isAbsolute, h]

/-- The directory of a path that leads to a name leads to where the name was looked up. -/
theorem resolve_directoryOf {files : Workspace} {path : Path} {place : Place} {name : String}
    (hpath : files.resolve path = .ok place) (hname : path.fileName? = some name) :
    ∃ directory, files.resolve (directoryOf path) = .ok directory ∧
      files.hasDirectory directory = true ∧ place = directory ++ [name] := by
  obtain ⟨hne, hfollow⟩ := resolve_eq_ok_iff.mp hpath
  obtain ⟨front, stop, hlocate⟩ := Path.exists_locate_of_fileName? hname
  obtain ⟨before, piece, after, isFirst, hpieces, hfront, _, hpiece, hafter⟩ :=
    Path.exists_of_locate_eq_append hlocate
  obtain ⟨hidle, hparent, rfl⟩ := Path.of_ofPiece?_eq_name hpiece
  rw [hpieces, ← List.singleton_append, follow_append_eq_ok_iff] at hfollow
  obtain ⟨directory, hdirectory, hrest⟩ := hfollow
  rw [follow_append_eq_ok_iff] at hrest
  obtain ⟨middle, hmiddle, hlast⟩ := hrest
  obtain ⟨hhas, _, rfl⟩ := (follow_name_eq_ok_iff hidle hparent).mp hmiddle
  refine ⟨directory, ?_, hhas, eq_of_follow_idle hafter hlast⟩
  rcases List.eq_nil_or_concat front with rfl | ⟨front, ⟨component, stop'⟩, rfl⟩
  · -- Nothing but idle pieces stands before the name.
    have hbefore := Path.isIdle_of_locate_eq_nil hfront
    have hstart := eq_of_follow_idle hbefore hdirectory
    rw [Path.directoryOf_of_locate_singleton hlocate]
    cases habsolute : path.isAbsolute with
    | true =>
        rw [start, habsolute] at hstart
        rw [hstart]
        rfl
    | false =>
        rw [start, habsolute, if_neg Bool.false_ne_true] at hstart
        rw [hstart] at hhas ⊢
        exact resolve_dot hhas
  · rw [List.concat_eq_append, List.append_assoc] at hlocate
    obtain ⟨before', piece', between, isFirst', rfl, _, rfl, hpiece', hbetween⟩ :=
      Path.exists_of_locate_eq_append (List.concat_eq_append ▸ hfront)
    have hstop := Path.length_pos_of_ofPiece?_eq_some hpiece'
    rw [Path.directoryOf_of_locate hlocate (by omega), Nat.zero_add]
    rw [List.append_assoc, List.cons_append] at hpieces
    have htake := Path.pieces_take hpieces
    obtain ⟨c, cs, hcs⟩ := List.exists_cons_of_ne_nil hne
    obtain ⟨n, hn⟩ := Nat.exists_eq_succ_of_ne_zero (Nat.ne_of_gt (Nat.lt_add_left _ hstop))
    rw [← List.singleton_append, ← List.append_assoc, follow_append_eq_ok_iff] at hdirectory
    obtain ⟨inner, hinner, hidle⟩ := hdirectory
    rw [resolve_eq_ok_iff, String.toList_ofList, htake, eq_of_follow_idle hbetween hidle, ← hinner]
    rw [hn, hcs, List.take_succ_cons]
    refine ⟨List.cons_ne_nil _ _, ?_⟩
    rw [start_eq_of_head?]
    rw [String.toList_ofList, hcs]
    rfl

/-- A name joined to a path leads from the directory at the path to an entry in it. -/
theorem resolve_join_iff {files : Workspace} {path : Path} (hpath : path.toList ≠ [])
    {name : String} (hname : Path.IsName name) {place : Place} :
    files.resolve (path.join name) = .ok place ↔
      ∃ directory, files.resolve path = .ok directory ∧ files.hasDirectory directory = true ∧
        (files.entry? (directory ++ [name])).isSome = true ∧ place = directory ++ [name] := by
  obtain ⟨front, hjoined, hpieces, hhead⟩ := Path.pieces_join hpath hname.slash
  have hne := Path.toList_join_ne_nil hpath hname.slash
  rw [resolve_eq_ok_iff, hjoined, start_eq_of_head? hhead, follow_append_eq_ok_iff]
  simp only [follow_name_eq_ok_iff hname.notIdle hname.notParent, String.ofList_toList]
  rcases hpieces with hpieces | hpieces
  · simp only [resolve_eq_ok_iff, hpieces, hne, hpath, ne_eq, not_false_eq_true, true_and]
  · simp only [resolve_eq_ok_iff, hpieces, hne, hpath, ne_eq, not_false_eq_true, true_and,
      follow_append_eq_ok_iff]
    constructor
    · rintro ⟨directory, hfront, hdirectory, hentry, rfl⟩
      have hempty : files.follow directory [[]] = .ok directory := by
        rw [follow, if_pos hdirectory, if_pos (.inl rfl)]
        rfl
      exact ⟨directory, ⟨directory, hfront, hempty⟩, hdirectory, hentry, rfl⟩
    · rintro ⟨directory, ⟨middle, hfront, hempty⟩, hdirectory, hentry, rfl⟩
      obtain rfl := eq_of_follow_idle (by simp [Path.IsIdle]) hempty
      exact ⟨directory, hfront, hdirectory, hentry, rfl⟩

theorem resolve_join_of_listsFile {files : Workspace} {path : Path} {directory : Place}
    (hpath : files.resolve path = .ok directory) (hdirectory : files.hasDirectory directory = true)
    {name : String} (hname : Path.IsName name) (hlists : files.listsFile directory name = true) :
    files.resolve (path.join name) = .ok (directory ++ [name]) :=
  (resolve_join_iff (resolve_eq_ok_iff.mp hpath).1 hname).mpr
    ⟨directory, hpath, hdirectory, isSome_entry?_of_listsFile hlists, rfl⟩

end Workspace

end ResourceLanguage
