import ResourceLanguage.Proofs.Path

/-!
The parent of a path, and the paths that are reached by going from parent to parent. A parent is a
shorter text, so this comes to an end. It goes from component to component as the path is written:
a path that leads to a directory has a parent that leads to where the last component was looked up.
-/

namespace ResourceLanguage

namespace Path

/-! ### Texts up to the end of a component -/

theorem width_pieces (cs : List Char) : width (pieces cs) = cs.length + 1 := by
  induction cs with
  | nil => rfl
  | cons c cs ih =>
      rw [pieces]
      split
      · rw [width_cons, ih, List.length_nil, List.length_cons]
        omega
      · split
        · rename_i hnil
          exact absurd hnil (pieces_ne_nil cs)
        · rename_i piece rest hpieces
          rw [hpieces, width_cons] at ih
          rw [width_cons, List.length_cons, List.length_cons]
          omega

theorem width_append (front back : List (List Char)) :
    width (front ++ back) = width front + width back := by
  simp only [width, List.flatten_append, List.length_append]
  omega

def upTo (path : Path) (stop : Nat) : Path := String.ofList (path.toList.take stop)

theorem toList_upTo (path : Path) (stop : Nat) : (path.upTo stop).toList = path.toList.take stop :=
  String.toList_ofList

theorem isAbsolute_upTo (path : Path) {stop : Nat} (h : 0 < stop) :
    (path.upTo stop).isAbsolute = path.isAbsolute := by
  rw [isAbsolute, isAbsolute, toList_upTo, List.head?_take, if_neg (Nat.ne_of_gt h)]

/-- A component that pieces spell, with the text up to its end. -/
structure EndsAt (path : Path) (stop : Nat) (back : List (Component × Nat)) : Prop where
  pos : 0 < stop
  le : stop ≤ path.toList.length
  /-- The text has the pieces up to the component, unless it is the root. -/
  pieces : path.upTo stop = "/" ∨ ∃ after,
    Path.pieces path.toList = Path.pieces (path.upTo stop).toList ++ after ∧
      locate (stop + 1) after = back

theorem of_locate_eq_append {path : Path} {front back : List (Component × Nat)}
    {component : Component} {stop : Nat}
    (h : locate 0 (pieces path.toList) = front ++ (component, stop) :: back) :
    locate 0 (pieces (path.upTo stop).toList) = front ++ [(component, stop)] ∧
      path.EndsAt stop back := by
  obtain ⟨before, piece, after, isFirst, hpieces, -, hpart, rfl, hpiece, hafter⟩ :=
    exists_of_locate_eq_append_cons h
  rw [Nat.zero_add] at hpart hafter ⊢
  have hpos := length_pos_of_ofPiece?_eq_some hpiece
  have hle : width before + piece.length ≤ path.toList.length := by
    have hwidth := width_pieces path.toList
    rw [hpieces, width_append, width_cons] at hwidth
    omega
  have hcut : pieces (path.upTo (width before + piece.length)).toList = before ++ [piece] := by
    rw [toList_upTo, pieces_take hpieces]
  refine ⟨hcut ▸ hpart, by omega, hle, .inr ⟨after, ?_, hafter⟩⟩
  rw [hcut, hpieces, List.append_assoc]
  rfl

/-- A path that is cut at the end of a component keeps the components up to there. -/
theorem located_upTo {path : Path} {front back : List (Component × Nat)} {component : Component}
    {stop : Nat} (h : path.located = front ++ (component, stop) :: back) :
    (path.upTo stop).located = front ++ [(component, stop)] ∧ path.EndsAt stop back := by
  rw [located_eq] at h
  cases habsolute : path.isAbsolute with
  | false =>
      rw [habsolute, if_neg Bool.false_ne_true, List.nil_append] at h
      obtain ⟨hlocate, hends⟩ := of_locate_eq_append h
      rw [located_eq, isAbsolute_upTo path hends.pos, habsolute, hlocate]
      exact ⟨rfl, hends⟩
  | true =>
      rw [habsolute, if_pos rfl] at h
      cases front with
      | nil =>
          obtain ⟨cs, hcs⟩ := List.head?_eq_some_iff.mp (beq_iff_eq.mp habsolute)
          obtain ⟨hroot, -⟩ := List.cons.inj h
          obtain ⟨rfl, rfl⟩ := Prod.mk.inj hroot
          have hslash : path.upTo 1 = "/" := by
            rw [upTo, hcs]
            rfl
          rw [hslash]
          exact ⟨by decide, Nat.one_pos, by rw [hcs]; exact Nat.succ_pos _, .inl hslash⟩
      | cons first front =>
          obtain ⟨rfl, htail⟩ := List.cons.inj h
          obtain ⟨hlocate, hends⟩ := of_locate_eq_append htail
          rw [located_eq, isAbsolute_upTo path hends.pos, habsolute, hlocate]
          exact ⟨rfl, hends⟩

theorem le_length_of_mem_located {path : Path} {found : Component × Nat}
    (h : found ∈ path.located) : found.2 ≤ path.toList.length := by
  obtain ⟨front, back, hlocated⟩ := List.append_of_mem h
  exact (located_upTo hlocated).2.le

theorem root_notMem_locate (start : Nat) (pieces : List (List Char)) (stop : Nat) :
    (.root, stop) ∉ locate start pieces := by
  intro hmem
  obtain ⟨front, back, hlocate⟩ := List.append_of_mem hmem
  obtain ⟨-, piece, -, isFirst, -, -, -, -, hpiece, -⟩ := exists_of_locate_eq_append_cons hlocate
  unfold Component.ofPiece? at hpiece
  split at hpiece
  · cases hpiece
  · cases isFirst <;> cases hpiece
  · cases hpiece
  · cases hpiece

/-- Only the first component can be the root, and it is for absolute paths. -/
theorem eq_nil_of_located_eq_root {path : Path} {front back : List (Component × Nat)} {stop : Nat}
    (h : path.located = front ++ (.root, stop) :: back) :
    front = [] ∧ path.isAbsolute = true := by
  rw [located_eq] at h
  cases habsolute : path.isAbsolute with
  | false =>
      rw [habsolute, if_neg Bool.false_ne_true, List.nil_append] at h
      refine absurd ?_ (root_notMem_locate 0 (pieces path.toList) stop)
      exact h ▸ List.mem_append_right _ (List.mem_cons_self ..)
  | true =>
      refine ⟨?_, rfl⟩
      rw [habsolute, if_pos rfl] at h
      cases front with
      | nil => rfl
      | cons first front =>
          rw [List.singleton_append, List.cons_append] at h
          refine absurd ?_ (root_notMem_locate 0 (pieces path.toList) stop)
          exact (List.cons.inj h).2 ▸ List.mem_append_right _ (List.mem_cons_self ..)

theorem isAbsolute_iff {path : Path} :
    path.isAbsolute = true ↔ ∃ stop back, path.located = (.root, stop) :: back := by
  constructor
  · intro habsolute
    rw [located_eq, habsolute, if_pos rfl]
    exact ⟨1, _, rfl⟩
  · rintro ⟨stop, back, hlocated⟩
    rw [← List.nil_append (_ :: _)] at hlocated
    exact (eq_nil_of_located_eq_root hlocated).2

theorem eq_empty_of_located_eq_nil {path : Path} (h : path.located = []) : path = "" := by
  cases hcs : path.toList with
  | nil => exact String.toList_eq_nil_iff.mp hcs
  | cons c cs =>
      rw [located_eq, List.append_eq_nil_iff] at h
      have hidle := isIdle_of_locate_eq_nil h.2
      by_cases hslash : c = '/'
      · simp [isAbsolute, hcs, hslash] at h
      · -- The first piece is not empty, so it spells something.
        cases hpieces : pieces cs with
        | nil => exact absurd hpieces (pieces_ne_nil cs)
        | cons piece rest =>
            have hlocate := h.2
            rw [hcs, pieces, if_neg hslash, hpieces] at hlocate hidle
            obtain hnil | hdot := hidle _ (List.mem_cons_self ..)
            · cases hnil
            · simp [hdot, locate, Component.ofPiece?] at hlocate

/-! ### Parents -/

/-- The parent of a path has the components of the path but the last, which is not the root. -/
theorem located_of_parent? {path parent : Path} (h : path.parent? = some parent) :
    ∃ component stop outer, component ≠ .root ∧
      path.located = parent.located ++ [(component, stop)] ∧ parent = path.upTo outer ∧
      (parent.located = [] ∧ outer = 0 ∨
        ∃ front found, parent.located = front ++ [(found, outer)]) := by
  rw [parent?] at h
  split at h
  · cases h
  · cases h
  · -- The path has one component, and its parent is empty.
    rename_i last hroot hreverse
    obtain rfl := Option.some.inj h
    have hlocated : path.located = [last] := by simpa using congrArg List.reverse hreverse
    refine ⟨last.1, last.2, 0, ?_, hlocated, rfl, .inl ⟨rfl, rfl⟩⟩
    exact fun heq => hroot last.2 (Prod.ext heq rfl)
  · rename_i last found outer front hroot hreverse
    obtain rfl := Option.some.inj h
    have hlocated : path.located = front.reverse ++ (found, outer) :: [last] := by
      simpa using congrArg List.reverse hreverse
    have hparent := (located_upTo hlocated).1
    refine ⟨last.1, last.2, outer, ?_, ?_, rfl, .inr ⟨front.reverse, found, hparent⟩⟩
    · exact fun heq => hroot last.2 (Prod.ext heq rfl)
    · rw [hlocated, ← upTo, hparent, List.append_assoc]
      rfl

theorem components_of_parent? {path parent : Path} (h : path.parent? = some parent) :
    ∃ component, component ≠ .root ∧ path.components = parent.components ++ [component] := by
  obtain ⟨component, stop, -, hroot, hlocated, -, -⟩ := located_of_parent? h
  refine ⟨component, hroot, ?_⟩
  rw [components, hlocated, List.map_append]
  rfl

theorem isAbsolute_of_parent? {path parent : Path} (h : path.parent? = some parent) :
    parent.isAbsolute = path.isAbsolute := by
  obtain ⟨component, stop, -, hroot, hlocated, -, -⟩ := located_of_parent? h
  rw [Bool.eq_iff_iff, isAbsolute_iff, isAbsolute_iff, hlocated]
  cases parent.located with
  | nil => simp [hroot]
  | cons first rest => simp

/-- A path without a parent is empty or leads to the root. -/
theorem located_of_parent?_eq_none {path : Path} (h : path.parent? = none) :
    path = "" ∨ ∃ stop, path.located = [(.root, stop)] := by
  rw [parent?] at h
  split at h
  · rename_i hreverse
    exact .inl (eq_empty_of_located_eq_nil (List.reverse_eq_nil_iff.mp hreverse))
  · rename_i stop rest hreverse
    have hlocated : path.located = rest.reverse ++ [(.root, stop)] := by
      simpa using congrArg List.reverse hreverse
    rw [(eq_nil_of_located_eq_root hlocated).1] at hlocated
    exact .inr ⟨stop, hlocated⟩
  · cases h
  · cases h

/-- Going from parent to parent ends. -/
theorem wellFounded_parent? : WellFounded fun parent path : Path => path.parent? = some parent := by
  refine Subrelation.wf ?_ (measure fun path : Path => path.components.length).wf
  intro parent path h
  obtain ⟨component, -, hcomponents⟩ := components_of_parent? h
  change parent.components.length < path.components.length
  rw [hcomponents, List.length_append, List.length_singleton]
  omega

/-! ### Ancestors -/

theorem ancestors_of_parent?_eq_none {path : Path} (h : path.parent? = none) :
    path.ancestors = [path] := by
  rcases located_of_parent?_eq_none h with rfl | ⟨stop, hlocated⟩
  · decide
  · have habsolute := isAbsolute_iff.mpr ⟨stop, [], hlocated⟩
    simp [ancestors, hlocated, habsolute]

theorem upTo_upTo (path : Path) {stop outer : Nat} (h : stop ≤ outer) :
    (path.upTo outer).upTo stop = path.upTo stop := by
  rw [upTo, toList_upTo, List.take_take, Nat.min_eq_left h]
  rfl

/-- The ancestors of a path are met by going from parent to parent. -/
theorem ancestors_of_parent? {path parent : Path} (h : path.parent? = some parent) :
    path.ancestors = path :: parent.ancestors := by
  obtain ⟨component, stop, outer, hroot, hlocated, hparent, houter⟩ := located_of_parent? h
  have hne : path ≠ "" := by
    rintro rfl
    exact absurd hlocated.symm (List.append_ne_nil_of_right_ne_nil _ (List.cons_ne_nil _ _))
  rcases houter with ⟨hnil, rfl⟩ | ⟨front, found, hfront⟩
  · -- The path has one component and is relative.
    obtain rfl := eq_empty_of_located_eq_nil hnil
    rw [hnil, List.nil_append] at hlocated
    have hrelative : path.isAbsolute = false := (isAbsolute_of_parent? h).symm
    have htop : ancestors "" = [""] := by decide
    rw [htop]
    simp [ancestors, hlocated, hrelative, hne]
  · have hparentNe : parent ≠ "" := by
      rintro rfl
      exact absurd hfront.symm (List.append_ne_nil_of_right_ne_nil _ (List.cons_ne_nil _ _))
    have hcut (other : Component × Nat) (hmem : other ∈ front) :
        parent.upTo other.2 = path.upTo other.2 := by
      have hle := le_length_of_mem_located (hfront ▸ List.mem_append_left _ hmem)
      rw [hparent, toList_upTo, List.length_take] at hle
      rw [hparent, upTo_upTo path (by omega)]
    rw [hfront, List.append_assoc] at hlocated
    have hmap : (front.reverse.map fun other => parent.upTo other.2) =
        front.reverse.map fun other => path.upTo other.2 :=
      List.map_congr_left fun other hmem => hcut other (List.mem_reverse.mp hmem)
    have hpathAncestors : path.ancestors = path :: (path.upTo outer ::
        (front.reverse.map fun other => path.upTo other.2)) ++
          if path.isAbsolute then [] else [""] := by
      simp [ancestors, hlocated, hne, upTo]
    have hparentAncestors : parent.ancestors =
        parent :: (front.reverse.map fun other => parent.upTo other.2) ++
          if parent.isAbsolute then [] else [""] := by
      simp [ancestors, hfront, hparentNe, upTo]
    rw [hpathAncestors, hparentAncestors, hmap, isAbsolute_of_parent? h, ← hparent]
    rfl

end Path

namespace Workspace

/-! ### Directories along the parents -/

theorem hasDirectory_of_follow {files : Workspace} {place stop : Place}
    {pieces : List (List Char)} (hne : pieces ≠ []) (h : files.follow place pieces = .ok stop) :
    files.hasDirectory place = true := by
  obtain ⟨piece, pieces, rfl⟩ := List.exists_cons_of_ne_nil hne
  rw [follow] at h
  split at h
  · assumption
  · cases h

/-- A path from which names are looked up in the directory at a place. The empty path leads
nowhere, and names are looked up from it in the current directory. -/
structure LooksIn (files : Workspace) (path : Path) (place : Place) : Prop where
  directory : files.hasDirectory place = true
  leads : files.resolve path = .ok place ∨ path = "" ∧ place = files.current

namespace LooksIn

variable {files : Workspace} {path : Path} {place : Place}

theorem place_eq (h : files.LooksIn path place) :
    place = path.components.foldl enter files.current := by
  rcases h.leads with hpath | ⟨rfl, rfl⟩
  · exact eq_foldl_enter_of_resolve hpath
  · rfl

theorem resolve_join_iff (h : files.LooksIn path place) {name : String} (hname : Path.IsName name)
    {stop : Place} :
    files.resolve (path.join name) = .ok stop ↔
      (files.entry? (place ++ [name])).isSome = true ∧ stop = place ++ [name] := by
  rcases h.leads with hpath | ⟨rfl, rfl⟩
  · rw [Workspace.resolve_join_iff (resolve_eq_ok_iff.mp hpath).1 hname]
    constructor
    · rintro ⟨directory, hdirectory, -, hentry, rfl⟩
      obtain rfl := Except.ok.inj (hdirectory.symm.trans hpath)
      exact ⟨hentry, rfl⟩
    · rintro ⟨hentry, rfl⟩
      exact ⟨place, hpath, h.directory, hentry, rfl⟩
  · have hrelative : Path.isAbsolute name = false := Path.isAbsolute_of_notMem hname.slash
    have hjoin : Path.join "" name = name := by simp [Path.join, hrelative]
    have hne : name.toList ≠ [] := fun hnil => hname.notIdle (.inl hnil)
    rw [hjoin, resolve_eq_ok_iff, Path.pieces_of_notMem hname.slash, start, hrelative,
      if_neg Bool.false_ne_true, follow_name_eq_ok_iff hname.notIdle hname.notParent,
      String.ofList_toList]
    simp [hne, h.directory]

theorem pathExists_join (h : files.LooksIn path place) {name : String}
    (hname : Path.IsName name) :
    files.pathExists (path.join name) = (files.entry? (place ++ [name])).isSome := by
  rw [pathExists, find?]
  cases hpath : files.resolve (path.join name) with
  | ok stop =>
      obtain ⟨-, rfl⟩ := (h.resolve_join_iff hname).mp hpath
      rfl
  | error error =>
      cases hentry : (files.entry? (place ++ [name])).isSome with
      | false => rfl
      | true =>
          rw [(h.resolve_join_iff hname).mpr ⟨hentry, rfl⟩] at hpath
          cases hpath

/-- The parent of a path to a directory looks in the directory where the last component was looked
up. -/
theorem parent (h : files.LooksIn path place) {parent : Path}
    (hparent : path.parent? = some parent) :
    ∃ outer, files.LooksIn parent outer ∧ files.start parent = files.start path := by
  have hpath : files.resolve path = .ok place := by
    refine h.leads.resolve_right ?_
    rintro ⟨rfl, -⟩
    cases hparent
  have hstart : files.start parent = files.start path := by
    rw [start, start, Path.isAbsolute_of_parent? hparent]
  obtain ⟨hne, hfollow⟩ := resolve_eq_ok_iff.mp hpath
  obtain ⟨component, stop, outer, -, hlocated, hcut, houter⟩ := Path.located_of_parent? hparent
  rcases houter with ⟨hnil, -⟩ | ⟨front, found, hfront⟩
  · obtain rfl := Path.eq_empty_of_located_eq_nil hnil
    have hdirectory := hasDirectory_of_follow (Path.pieces_ne_nil _) hfollow
    rw [← hstart] at hdirectory
    exact ⟨files.current, ⟨hdirectory, .inr ⟨rfl, rfl⟩⟩, hstart⟩
  · rw [hfront, List.append_assoc, List.singleton_append] at hlocated
    have hends := (Path.located_upTo hlocated).2
    have hpieces := hends.pieces
    rw [← hcut] at hpieces
    rcases hpieces with rfl | ⟨after, hpieces, hafter⟩
    · exact ⟨[], ⟨rfl, .inl rfl⟩, hstart⟩
    · have hafterNe : after ≠ [] := by
        rintro rfl
        cases hafter
      rw [hpieces, follow_append_eq_ok_iff] at hfollow
      obtain ⟨middle, hmiddle, hrest⟩ := hfollow
      have hparentNe : parent.toList ≠ [] := by
        rw [hcut, Path.toList_upTo, Ne, List.take_eq_nil_iff, not_or]
        exact ⟨Nat.ne_of_gt hends.pos, hne⟩
      refine ⟨middle, ⟨hasDirectory_of_follow hafterNe hrest, .inl ?_⟩, hstart⟩
      exact resolve_eq_ok_iff.mpr ⟨hparentNe, hstart ▸ hmiddle⟩

/-- From a path without a parent names are looked up where every path begins. -/
theorem place_of_parent?_eq_none (h : files.LooksIn path place) (hparent : path.parent? = none) :
    place = files.start path := by
  rw [h.place_eq]
  rcases Path.located_of_parent?_eq_none hparent with rfl | ⟨stop, hlocated⟩
  · rfl
  · rw [Path.components, hlocated, start, Path.isAbsolute_iff.mpr ⟨stop, [], hlocated⟩]
    rfl

end LooksIn

end Workspace

end ResourceLanguage
