import ResourceLanguage.Proofs.Path

/-!
The components of a path and the pieces that spell them. Behind other pieces every piece spells its
component on its own, so joining a path to a base directory adds components at the end, and only a
`.` in front of all makes a difference.
-/

namespace ResourceLanguage

namespace Path

/-- The components that pieces spell behind others. -/
def stepsOf (pieces : List (List Char)) : List Component :=
  pieces.filterMap (Component.ofPiece? false)

/-- The components of a path without a `.` in front. -/
def trail (path : Path) : List Component :=
  (if path.isAbsolute then [.root] else []) ++ stepsOf (pieces path.toList)

theorem current_notMem_stepsOf (pieces : List (List Char)) : .current ∉ stepsOf pieces := by
  intro hmem
  obtain ⟨piece, -, hpiece⟩ := List.mem_filterMap.mp hmem
  unfold Component.ofPiece? at hpiece
  split at hpiece <;> simp at hpiece

theorem current_notMem_trail (path : Path) : .current ∉ path.trail := by
  rw [trail, List.mem_append, not_or]
  refine ⟨?_, current_notMem_stepsOf _⟩
  cases path.isAbsolute <;> simp

theorem map_fst_locate {start : Nat} {pieces : List (List Char)}
    (h : start ≠ 0 ∨ pieces.head? ≠ some ['.']) :
    (locate start pieces).map (·.1) = stepsOf pieces := by
  induction pieces generalizing start with
  | nil => rfl
  | cons piece pieces ih =>
      have hpiece : Component.ofPiece? (start = 0) piece = Component.ofPiece? false piece := by
        rcases h with hstart | hdot
        · rw [decide_eq_false hstart]
        · exact Workspace.ofPiece?_of_ne_dot fun heq => hdot (congrArg some heq)
      have htail : (locate (start + piece.length + 1) pieces).map (·.1) = stepsOf pieces :=
        ih (.inl (Nat.succ_ne_zero _))
      rw [locate, stepsOf, List.filterMap_cons, hpiece]
      cases Component.ofPiece? false piece with
      | none => exact htail
      | some component => rw [List.map_cons, htail]; rfl

theorem stepsOf_append (front back : List (List Char)) :
    stepsOf (front ++ back) = stepsOf front ++ stepsOf back := List.filterMap_append

theorem stepsOf_singleton (piece : List Char) :
    stepsOf [piece] = (Component.ofPiece? false piece).toList := by
  rw [stepsOf, List.filterMap_cons]
  cases Component.ofPiece? false piece <;> rfl

theorem ofPiece?_cases (isFirst : Bool) (piece : List Char) :
    Component.ofPiece? isFirst piece = Component.ofPiece? false piece ∨
      Component.ofPiece? false piece = none ∧
        Component.ofPiece? isFirst piece = some .current := by
  by_cases hdot : piece = ['.']
  · subst hdot
    cases isFirst
    · exact .inl rfl
    · exact .inr ⟨rfl, rfl⟩
  · exact .inl (Workspace.ofPiece?_of_ne_dot hdot)

/-- Only a `.` in front distinguishes the components of a path from its trail. -/
theorem components_eq (path : Path) :
    path.components =
      (if (pieces path.toList).head? = some ['.'] then [.current] else []) ++ path.trail := by
  rw [components, located_eq, trail, List.map_append]
  by_cases hdot : (pieces path.toList).head? = some ['.']
  · obtain ⟨rest, hrest⟩ := List.head?_eq_some_iff.mp hdot
    have hrelative : path.isAbsolute = false := by
      rw [isAbsolute, beq_eq_false_iff_ne]
      intro hslash
      obtain ⟨cs, hcs⟩ := List.head?_eq_some_iff.mp hslash
      rw [hcs, pieces, if_pos rfl] at hrest
      cases hrest
    have hlocate : (locate 0 (['.'] :: rest)).map (·.1) =
        .current :: (locate 2 rest).map (·.1) := rfl
    rw [if_pos hdot, hrelative, hrest, hlocate, map_fst_locate (.inl (by decide))]
    rfl
  · rw [if_neg hdot, map_fst_locate (.inr hdot)]
    cases path.isAbsolute <;> rfl

theorem components_of_head?_ne {path : Path} (h : path.components.head? ≠ some .current) :
    path.components = path.trail := by
  rw [components_eq] at h ⊢
  split
  · rename_i hdot
    rw [if_pos hdot] at h
    exact absurd rfl h
  · rfl

/-! ### Joined paths -/

/-- A relative path that is joined to a base directory adds its pieces to those of the base
directory. -/
theorem exists_front (base : Path) {entry : Path} (hentry : entry.isAbsolute = false) :
    ∃ front, pieces (base.join entry).toList = front ++ pieces entry.toList ∧
      front <+: pieces base.toList ∧ stepsOf front = stepsOf (pieces base.toList) ∧
      (base.toList ≠ [] → front ≠ []) ∧ (base.join entry).isAbsolute = base.isAbsolute := by
  by_cases hbase : base.toList = []
  · obtain rfl := String.toList_eq_nil_iff.mp hbase
    have hjoin : join "" entry = entry := by simp [join, hentry]
    rw [hjoin, hentry]
    exact ⟨[], rfl, List.nil_prefix, rfl, fun hne => absurd rfl hne, rfl⟩
  · obtain ⟨front, hjoined, hpieces, hhead⟩ := pieces_join_of_relative hbase hentry
    refine ⟨front, hjoined, ?_, ?_, fun _ => ne_nil_of_pieces_eq hbase hpieces, ?_⟩
    · rcases hpieces with hpieces | hpieces
      · exact hpieces ▸ List.prefix_refl front
      · exact hpieces ▸ List.prefix_append front [[]]
    · rcases hpieces with hpieces | hpieces
      · rw [hpieces]
      · rw [hpieces, stepsOf_append]
        exact (List.append_nil _).symm
    · rw [isAbsolute, isAbsolute, hhead]

theorem trail_join (base : Path) {entry : Path} (hentry : entry.isAbsolute = false) :
    (base.join entry).trail = base.trail ++ stepsOf (pieces entry.toList) := by
  obtain ⟨front, hjoined, -, hsteps, -, habsolute⟩ := exists_front base hentry
  rw [trail, trail, hjoined, habsolute, stepsOf_append, hsteps, List.append_assoc]

/-- A path that leads down from a base directory: it is relative, does not go up, and does not begin
with a `.` where nothing stands before it. -/
structure LeadsDown (base entry : Path) : Prop where
  relative : entry.isAbsolute = false
  parent : ['.', '.'] ∉ pieces entry.toList
  front : base.toList = [] → (pieces entry.toList).head? ≠ some ['.']

instance (base entry : Path) : Decidable (LeadsDown base entry) :=
  decidable_of_iff (entry.isAbsolute = false ∧ ['.', '.'] ∉ pieces entry.toList ∧
      (base.toList = [] → (pieces entry.toList).head? ≠ some ['.']))
    ⟨fun ⟨relative, parent, front⟩ => ⟨relative, parent, front⟩,
      fun h => ⟨h.relative, h.parent, h.front⟩⟩

theorem exists_names_of_stepsOf {pieces : List (List Char)} (h : ['.', '.'] ∉ pieces) :
    ∃ names : List String, stepsOf pieces = names.map .name := by
  induction pieces with
  | nil => exact ⟨[], rfl⟩
  | cons piece pieces ih =>
      rw [List.mem_cons, not_or] at h
      obtain ⟨names, hnames⟩ := ih h.2
      have hpiece : ∃ front : List String, stepsOf [piece] = front.map .name := by
        rw [stepsOf_singleton]
        unfold Component.ofPiece?
        split
        · exact ⟨[], rfl⟩
        · exact ⟨[], rfl⟩
        · exact absurd rfl h.1
        · exact ⟨[_], rfl⟩
      obtain ⟨front, hfront⟩ := hpiece
      refine ⟨front ++ names, ?_⟩
      rw [← List.singleton_append, stepsOf_append, hfront, hnames, List.map_append]

/-- What leads down from a base directory is spelled with the components of the base directory and
with names after them. -/
theorem LeadsDown.exists_names {base entry : Path} (h : LeadsDown base entry) :
    ∃ names : List String, (base.join entry).components = base.components ++ names.map .name := by
  obtain ⟨names, hnames⟩ := exists_names_of_stepsOf h.parent
  obtain ⟨front, hjoined, hfront, -, hne, -⟩ := exists_front base h.relative
  refine ⟨names, ?_⟩
  have hhead : (pieces (base.join entry).toList).head? = some ['.'] ↔
      (pieces base.toList).head? = some ['.'] := by
    by_cases hbase : base.toList = []
    · obtain rfl := String.toList_eq_nil_iff.mp hbase
      have hjoin : join "" entry = entry := by simp [join, h.relative]
      rw [hjoin]
      exact iff_of_false (h.front rfl) (by decide)
    · obtain ⟨back, hback⟩ := hfront
      rw [hjoined, ← hback, List.head?_append_of_ne_nil _ (hne hbase),
        List.head?_append_of_ne_nil _ (hne hbase)]
  rw [components_eq, components_eq, trail_join base h.relative, hnames, List.append_assoc]
  simp only [hhead]

/-- Two paths are spelled alike if they differ in names at their ends only. -/
def Alike (path other : Path) : Prop :=
  ∃ (stem : List Component) (names names' : List String),
    path.components = stem ++ names.map .name ∧ other.components = stem ++ names'.map .name

end Path

end ResourceLanguage
