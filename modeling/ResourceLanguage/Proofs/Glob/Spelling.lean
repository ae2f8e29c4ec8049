import ResourceLanguage.Proofs.Glob.Expand
import ResourceLanguage.Proofs.Path.Texts
import ResourceLanguage.Proofs.Scan

/-!
How the paths that match a pattern are spelled. Expanding begins at the current directory without
naming it, so a `.` in front of the pattern is not in front of the paths. Apart from that a piece
without wildcards is spelled in the paths as in the pattern, and a piece with wildcards stands for
names.
-/

namespace ResourceLanguage

namespace Glob

open ResourceLanguage.Path

/-! ### Patterns without wildcards -/

/-- A character that makes a pattern of a text. -/
def isMeta (c : Char) : Bool := c = '*' || c = '?' || c = '['

/-- A text that a pattern spells as it is. -/
def IsLiteral (text : List Char) : Prop := ∀ c ∈ text, isMeta c = false

instance : DecidablePred IsLiteral := fun text =>
  decidable_of_iff ((text.all fun c => !isMeta c) = true) (by simp [IsLiteral])

theorem literal?_eq_some_iff {pattern : Pattern} {text : String} :
    pattern.literal? = some text ↔ pattern = text.toList.map .char := by
  have hchars (chars : List Char) :
      pattern.mapM PatternToken.literal? = some chars ↔ pattern = chars.map .char := by
    induction pattern generalizing chars with
    | nil => cases chars <;> simp
    | cons token pattern ih =>
        cases token <;> cases chars <;>
          simp [List.mapM_cons, PatternToken.literal?, Option.bind_eq_some_iff, ih, and_comm]
  rw [Pattern.literal?, Option.map_eq_some_iff, ← hchars]
  constructor
  · rintro ⟨chars, hchars, rfl⟩
    rwa [String.toList_ofList]
  · exact fun h => ⟨_, h, String.ofList_toList⟩

theorem readPattern_of_isLiteral {cs : List Char} (h : IsLiteral cs) (position : Nat)
    (tokens : List PatternToken) (before : Option Char) :
    readPattern position tokens before cs = .ok (tokens.reverse ++ cs.map .char) := by
  induction cs generalizing position tokens before with
  | nil => simp [readPattern]
  | cons c cs ih =>
      obtain ⟨hc, hcs⟩ := List.forall_mem_cons.mp h
      simp only [isMeta, Bool.or_eq_false_iff, decide_eq_false_iff_not] at hc
      rw [readPattern]
      · rw [ih hcs]
        simp
      all_goals simp_all

theorem subset_pushComponents (tokens : List PatternToken) :
    tokens ⊆ pushComponents tokens ∧ .anyComponents ∈ pushComponents tokens := by
  unfold pushComponents
  split
  · simp
  · simp

theorem literal?_of_readSet? {cs after : List Char} {token : PatternToken}
    (h : readSet? cs = some (token, after)) : token.literal? = none := by
  unfold readSet? at h
  split at h
  all_goals
    simp only at h
    split at h
    · cases h
    split at h
    · cases h
    · cases h
      rfl

/-- Reading keeps the tokens that it has read, and a character with a meaning gives a token that
is no character. -/
theorem of_readPattern {position : Nat} {tokens : List PatternToken} {before : Option Char}
    {cs : List Char} {pattern : Pattern}
    (h : readPattern position tokens before cs = .ok pattern) :
    tokens ⊆ pattern ∧ (IsLiteral cs ∨ ∃ token ∈ pattern, token.literal? = none) := by
  fun_induction readPattern position tokens before cs with
  | case1 =>
      cases h
      exact ⟨List.subset_reverse.mpr (List.Subset.refl _),
        .inl fun _ hc => absurd hc List.not_mem_nil⟩
  | case2 | case5 | case6 | case10 => cases h
  | case3 position tokens =>
      cases h
      obtain ⟨hsubset, hmem⟩ := subset_pushComponents tokens
      exact ⟨fun _ htoken => List.mem_reverse.mpr (hsubset htoken),
        .inr ⟨_, List.mem_reverse.mpr hmem, rfl⟩⟩
  | case4 position tokens _ _ _ _ ih =>
      obtain ⟨hsubset, hmem⟩ := subset_pushComponents tokens
      exact ⟨List.Subset.trans hsubset (ih h).1, .inr ⟨_, (ih h).1 hmem, rfl⟩⟩
  | case7 _ _ _ _ _ _ ih | case8 _ _ _ _ ih =>
      obtain ⟨hhead, htail⟩ := List.cons_subset.mp (ih h).1
      exact ⟨htail, .inr ⟨_, hhead, rfl⟩⟩
  | case9 _ _ _ _ _ _ hset ih =>
      obtain ⟨hhead, htail⟩ := List.cons_subset.mp (ih h).1
      exact ⟨htail, .inr ⟨_, hhead, literal?_of_readSet? hset⟩⟩
  | case11 _ _ _ c _ _ _ hstar hquestion hbracket ih =>
      obtain ⟨hsubset, hliteral⟩ := ih h
      refine ⟨(List.cons_subset.mp hsubset).2, hliteral.imp_left fun hcs => ?_⟩
      refine List.forall_mem_cons.mpr ⟨?_, hcs⟩
      simp only [isMeta, Bool.or_eq_false_iff, decide_eq_false_iff_not]
      exact ⟨⟨hstar, hquestion⟩, hbracket⟩

theorem parse_of_isLiteral {text : String} (h : IsLiteral text.toList) :
    Pattern.parse text = .ok (text.toList.map .char) := by
  rw [Pattern.parse, readPattern_of_isLiteral h]
  rfl

theorem literal?_of_isLiteral {text : String} {pattern : Pattern}
    (hparse : Pattern.parse text = .ok pattern) (htext : IsLiteral text.toList) :
    pattern.literal? = some text := by
  rw [parse_of_isLiteral htext] at hparse
  rw [literal?_eq_some_iff]
  exact (Except.ok.inj hparse).symm

/-- A pattern without wildcards comes from a text without them, and stands for that text. -/
theorem of_literal? {text name : String} {pattern : Pattern}
    (hparse : Pattern.parse text = .ok pattern) (hliteral : pattern.literal? = some name) :
    name = text ∧ IsLiteral text.toList := by
  have htext : IsLiteral text.toList := by
    refine (of_readPattern hparse).2.resolve_right ?_
    rintro ⟨token, hmem, hnone⟩
    rw [literal?_eq_some_iff.mp hliteral] at hmem
    obtain ⟨c, -, rfl⟩ := List.mem_map.mp hmem
    cases hnone
  exact ⟨Option.some.inj (hliteral.symm.trans (literal?_of_isLiteral hparse htext)), htext⟩

theorem exists_piece_of_isPattern {text : String} (h : isPattern text = true) :
    ∃ piece ∈ pieces text.toList, ¬IsLiteral piece := by
  obtain ⟨c, hc, hwild⟩ := List.any_eq_true.mp h
  have hmeta : isMeta c = true := by
    simp_all [isMeta]
  have hslash : c ≠ '/' := by
    rintro rfl
    revert hwild
    decide
  obtain ⟨piece, hpiece, hmem⟩ := List.mem_flatten.mp (mem_flatten_pieces.mpr ⟨hc, hslash⟩)
  exact ⟨piece, hpiece, fun hliteral => by simp [hliteral c hmem] at hmeta⟩

/-! ### Paths on the way -/

/-- How a path is spelled that expanding comes to: with the given components, or as the current
directory if there are none. -/
structure Spells (path : Path) (trail : List Component) : Prop where
  free : .current ∉ trail
  components : path.components = trail ∨ trail = [] ∧ path.components = [.current]

namespace Spells

variable {path : Path} {trail : List Component}

theorem join_piece (h : Spells path trail) {isFirst : Bool} (hfirst : isFirst = false ∨ trail = [])
    (piece : List Char) {joined : Path}
    (hjoined : joined.components = trail ++ (Component.ofPiece? isFirst piece).toList) :
    Spells joined (trail ++ stepsOf [piece]) := by
  refine ⟨?_, ?_⟩
  · rw [List.mem_append, not_or]
    exact ⟨h.free, current_notMem_stepsOf _⟩
  · rw [stepsOf_singleton, hjoined]
    rcases ofPiece?_cases isFirst piece with hsame | ⟨hnone, hcurrent⟩
    · exact .inl (by rw [hsame])
    · rcases hfirst with rfl | rfl
      · rw [hnone] at hcurrent
        cases hcurrent
      · exact .inr ⟨by rw [hnone]; rfl, by rw [hcurrent]; rfl⟩

/-- Expanding adds the component that a piece spells behind others, even to the current
directory. -/
theorem childPath (h : Spells path trail) {piece : String} (hpiece : '/' ∉ piece.toList) :
    Spells (Glob.childPath path piece) (trail ++ stepsOf [piece.toList]) := by
  rw [Glob.childPath, isCurrent]
  split
  · rename_i hcurrent
    rw [beq_iff_eq] at hcurrent
    obtain rfl : trail = [] := by
      rcases h.components with heq | ⟨hnil, -⟩
      · exact absurd (heq ▸ hcurrent ▸ List.mem_singleton_self _) h.free
      · exact hnil
    have hcomponents := components_join_piece "" hpiece
    have hjoin : join "" piece = piece := by simp [join, isAbsolute_of_notMem hpiece]
    rw [hjoin] at hcomponents
    exact h.join_piece (.inr rfl) _ hcomponents
  · rename_i hcurrent
    have htrail : path.components = trail := by
      refine h.components.resolve_right ?_
      rintro ⟨-, hcomponents⟩
      exact hcurrent (by rw [hcomponents]; rfl)
    refine h.join_piece ?_ _ (htrail ▸ components_join_piece path hpiece)
    cases hempty : path.isEmpty with
    | false => exact .inl rfl
    | true =>
        right
        rw [← htrail, String.isEmpty_iff.mp hempty]
        rfl

theorem foldl_childPath (h : Spells path trail) {pieces : List String}
    (hpieces : ∀ piece ∈ pieces, '/' ∉ piece.toList) :
    Spells (pieces.foldl Glob.childPath path) (trail ++ stepsOf (pieces.map String.toList)) := by
  induction pieces generalizing path trail with
  | nil => simpa [stepsOf] using h
  | cons piece pieces ih =>
      obtain ⟨hpiece, hpieces⟩ := List.forall_mem_cons.mp hpieces
      have hrest := ih (h.childPath hpiece) hpieces
      rwa [List.append_assoc, ← stepsOf_append] at hrest

end Spells

/-! ### Expanding -/

theorem isCurrent_childPath (path : Path) {name : String} (hname : IsName name) :
    isCurrent (childPath path name) = false := by
  have hcomponents : ∃ front, (childPath path name).components = front ++ [.name name] := by
    rw [childPath]
    split
    · have hjoin : join "" name = name := by simp [join, isAbsolute_of_notMem hname.slash]
      exact ⟨_, hjoin ▸ components_join "" hname⟩
    · exact ⟨_, components_join path hname⟩
  obtain ⟨front, hfront⟩ := hcomponents
  rw [isCurrent, hfront, beq_eq_false_iff_ne]
  intro heq
  have hlast := congrArg List.getLast? heq
  simp at hlast

/-- The path of an entry below a directory is made by going from child to child. -/
theorem descendantPath_eq_foldl (directory : Path) {names : Place}
    (hnames : ∀ name ∈ names, IsName name) :
    descendantPath directory names = names.foldl childPath directory := by
  have hjoin (path : Path) {names : Place} (hnames : ∀ name ∈ names, IsName name)
      (hpath : isCurrent path = false) : names.foldl join path = names.foldl childPath path := by
    induction names generalizing path with
    | nil => rfl
    | cons name names ih =>
        obtain ⟨hname, hnames⟩ := List.forall_mem_cons.mp hnames
        have hchild : childPath path name = path.join name := if_neg (by simp [hpath])
        rw [List.foldl_cons, List.foldl_cons, ← hchild]
        exact ih _ hnames (isCurrent_childPath path hname)
  cases names with
  | nil => rfl
  | cons name names =>
      obtain ⟨hname, hnames⟩ := List.forall_mem_cons.mp hnames
      exact hjoin _ hnames (isCurrent_childPath directory hname)

variable {files : Workspace}

theorem exists_of_mem_descendants {directory found : Path} {names : Place} {entry : Entry}
    (h : (found, names, entry) ∈ descendants files directory) :
    names ≠ [] ∧ (∃ place, (place ++ names, entry) ∈ files.entries) ∧
      found = descendantPath directory names := by
  unfold descendants at h
  cases hplace : files.resolve directory with
  | error error =>
      rw [hplace] at h
      cases h
  | ok place =>
      rw [hplace] at h
      obtain ⟨⟨names, entry⟩, hbelow, heq⟩ := List.mem_map.mp h
      cases heq
      obtain ⟨hne, hmem⟩ := Workspace.mem_below.mp hbelow
      exact ⟨hne, ⟨place, hmem⟩, rfl⟩

/-- A pattern for a piece that stands for no directory above. -/
structure Pattern.IsDownward (pattern : Pattern) : Prop where
  /-- Without wildcards it is not `..`. -/
  literal : pattern.literal? ≠ some ".."
  /-- With wildcards it matches neither `.` nor `..`. -/
  special : pattern.literal? = none → specialPaths "" pattern = []

instance : DecidablePred Pattern.IsDownward := fun pattern =>
  decidable_of_iff (pattern.literal? ≠ some ".." ∧
      (pattern.literal? = none → specialPaths "" pattern = []))
    ⟨fun ⟨literal, special⟩ => ⟨literal, special⟩, fun h => ⟨h.literal, h.special⟩⟩

theorem specialPaths_eq_nil {pattern : Pattern} (h : specialPaths "" pattern = [])
    (directory : Path) : specialPaths directory pattern = [] := by
  unfold specialPaths at h ⊢
  split
  · rw [if_pos ‹_›, List.map_eq_nil_iff] at h
    rw [h, List.map_nil]
  · rfl

/-- The patterns that some pieces spell. -/
def Parses (pieces : List (List Char)) (patterns : List Pattern) : Prop :=
  pieces.map (fun piece => Pattern.parse (String.ofList piece)) = patterns.map .ok

namespace Parses

variable {pieces : List (List Char)} {patterns : List Pattern}

theorem exists_piece (h : Parses pieces patterns) {pattern : Pattern}
    (hpattern : pattern ∈ patterns) :
    ∃ piece ∈ pieces, Pattern.parse (String.ofList piece) = .ok pattern := by
  have hok : (.ok pattern : Except PatternError Pattern) ∈ patterns.map .ok :=
    List.mem_map_of_mem hpattern
  rw [← h] at hok
  exact List.mem_map.mp hok

theorem exists_pattern (h : Parses pieces patterns) {piece : List Char} (hpiece : piece ∈ pieces) :
    ∃ pattern ∈ patterns, Pattern.parse (String.ofList piece) = .ok pattern := by
  have hparse : Pattern.parse (String.ofList piece) ∈
      pieces.map fun piece => Pattern.parse (String.ofList piece) := List.mem_map_of_mem hpiece
  rw [h] at hparse
  obtain ⟨pattern, hpattern, hok⟩ := List.mem_map.mp hparse
  exact ⟨pattern, hpattern, hok.symm⟩

end Parses

/-- Pieces without wildcards are taken as they are. -/
theorem exists_of_literal_front {front back : List (List Char)} {patterns : List Pattern}
    (hparses : Parses (front ++ back) patterns) (hfront : ∀ piece ∈ front, IsLiteral piece)
    {path reached : Path} (h : reached ∈ matchingPaths files patterns path) :
    ∃ rest, Parses back rest ∧
      reached ∈ matchingPaths files rest ((front.map String.ofList).foldl childPath path) := by
  induction front generalizing patterns path with
  | nil => exact ⟨patterns, hparses, h⟩
  | cons piece front ih =>
      obtain ⟨hliteral, hfront⟩ := List.forall_mem_cons.mp hfront
      obtain ⟨pattern, rest, rfl, hparse, hrest⟩ := List.map_eq_cons_iff.mp hparses.symm
      have hname : pattern.literal? = some (String.ofList piece) :=
        literal?_of_isLiteral hparse.symm (by rwa [String.toList_ofList])
      obtain ⟨-, hreached⟩ := (mem_matchingPaths_of_literal hname).mp h
      exact ih hrest.symm hfront hreached

/-- A step without the special paths adds the piece itself, or names if there are wildcards. -/
theorem exists_pieces_of_step (named : files.WellNamed) {pattern : Pattern}
    (hspecial : pattern.literal? = none → specialPaths "" pattern = []) {rest : List Pattern}
    {path reached : Path} (h : reached ∈ matchingPaths files (pattern :: rest) path) :
    ∃ added more, more <:+ rest ∧ reached ∈ matchingPaths files more (added.foldl childPath path) ∧
      ((∃ name, pattern.literal? = some name ∧ added = [name] ∧ more = rest) ∨
        pattern.literal? = none ∧ added ≠ [] ∧ ∀ name ∈ added, IsName name) := by
  cases hliteral : pattern.literal? with
  | some name =>
      obtain ⟨-, hreached⟩ := (mem_matchingPaths_of_literal hliteral).mp h
      exact ⟨[name], rest, List.suffix_refl rest, hreached, .inl ⟨name, rfl, rfl, rfl⟩⟩
  | none =>
      obtain ⟨-, ⟨-, found, hfound, -⟩ | ⟨found, names, entry, more, hmem, hcontinues, hreached⟩⟩ :=
        (mem_matchingPaths_of_wildcards hliteral).mp h
      · rw [specialPaths_eq_nil (hspecial hliteral)] at hfound
        cases hfound
      · obtain ⟨hne, ⟨place, hentry⟩, rfl⟩ := exists_of_mem_descendants hmem
        have hnames : ∀ name ∈ names, IsName name := fun name hname =>
          named _ hentry name (List.mem_append_right place hname)
        rw [descendantPath_eq_foldl path hnames] at hreached
        exact ⟨names, more, hcontinues.suffix, hreached, .inr ⟨rfl, hne, hnames⟩⟩

/-- Expanding without the special paths adds pieces of the pattern and names, and one name at least
if there are wildcards. -/
theorem exists_pieces_of_matchingPaths (named : files.WellNamed) {patterns : List Pattern}
    (hspecial : ∀ pattern ∈ patterns, pattern.literal? = none → specialPaths "" pattern = [])
    {path reached : Path} (h : reached ∈ matchingPaths files patterns path) :
    ∃ pieces : List String, reached = pieces.foldl childPath path ∧
      (∀ piece ∈ pieces, IsName piece ∨ ∃ pattern ∈ patterns, pattern.literal? = some piece) ∧
      ((∃ pattern ∈ patterns, pattern.literal? = none) → ∃ piece ∈ pieces, IsName piece) := by
  -- A `**` takes along the patterns behind it that are `**` too, so more than one may go in a step.
  induction hlength : patterns.length using Nat.strong_induction_on generalizing patterns path with
  | h length ih =>
      cases patterns with
      | nil =>
          obtain rfl := mem_matchingPaths_nil.mp h
          exact ⟨[], rfl, by simp, by simp⟩
      | cons pattern rest =>
          obtain ⟨hpattern, hspecialRest⟩ := List.forall_mem_cons.mp hspecial
          obtain ⟨added, more, hmore, hreached, hadded⟩ := exists_pieces_of_step named hpattern h
          have hshorter : more.length < length := by
            have hle := hmore.length_le
            rw [← hlength, List.length_cons]
            omega
          obtain ⟨pieces, rfl, hpieces, hwild⟩ := ih more.length hshorter
            (fun other hother => hspecialRest other (hmore.subset hother)) hreached rfl
          refine ⟨added ++ pieces, List.foldl_append.symm, ?_, ?_⟩
          · intro piece hpiece
            rcases List.mem_append.mp hpiece with hpiece | hpiece
            · rcases hadded with ⟨name, hname, rfl, -⟩ | ⟨-, -, hnames⟩
              · rw [List.mem_singleton.mp hpiece]
                exact .inr ⟨pattern, List.mem_cons_self, hname⟩
              · exact .inl (hnames piece hpiece)
            · refine (hpieces piece hpiece).imp_right ?_
              rintro ⟨other, hother, hliteral⟩
              exact ⟨other, List.mem_cons_of_mem _ (hmore.subset hother), hliteral⟩
          · rintro ⟨other, hother, hnone⟩
            rcases hadded with ⟨name, hname, -, rfl⟩ | ⟨-, hne, hnames⟩
            · rcases List.mem_cons.mp hother with rfl | hother
              · rw [hnone] at hname
                cases hname
              · obtain ⟨piece, hpiece, hisName⟩ := hwild ⟨other, hother, hnone⟩
                exact ⟨piece, List.mem_append_right _ hpiece, hisName⟩
            · obtain ⟨name, hname⟩ := List.exists_mem_of_ne_nil added hne
              exact ⟨name, List.mem_append_left _ hname, hnames name hname⟩

/-! ### Patterns from a base directory -/

theorem parses_of_mapM {pieces : List (List Char)} {patterns : List Pattern}
    (h : pieces.mapM (fun piece => Pattern.parse (String.ofList piece)) = .ok patterns) :
    Parses pieces patterns := by
  rw [Parses]
  induction pieces generalizing patterns with
  | nil =>
      cases h
      rfl
  | cons piece pieces ih =>
      rw [List.mapM_cons] at h
      cases hparse : Pattern.parse (String.ofList piece) with
      | error error =>
          rw [hparse] at h
          cases h
      | ok pattern =>
          rw [hparse] at h
          cases hrest : pieces.mapM fun piece => Pattern.parse (String.ofList piece) with
          | error error =>
              rw [hrest] at h
              cases h
          | ok rest =>
              rw [hrest] at h
              cases h
              rw [List.map_cons, List.map_cons, ih hrest, hparse]

/-- Expanding takes the components of a pattern from the root or from the current directory on. -/
theorem exists_of_expand {text : Path} {paths : List Path}
    (h : expand files text = .ok paths) :
    ∃ relative patterns scope, Parses (componentTexts relative) patterns ∧
      paths = matchingPaths files patterns scope ∧
      (text.toList = '/' :: relative ∧ scope = "/" ∨
        text.isAbsolute = false ∧ text.toList = relative ∧ scope = ".") := by
  unfold expand at h
  cases hparse : Pattern.parse text with
  | error error =>
      rw [hparse] at h
      cases h
  | ok pattern =>
      simp only [hparse, bind, Except.bind] at h
      split at h
      · cases h
      · rename_i patterns hpatterns
        cases h
        refine ⟨_, patterns, _, parses_of_mapM hpatterns, rfl, ?_⟩
        split
        · exact .inl ⟨‹_›, rfl⟩
        · rename_i hslash
          refine .inr ⟨?_, rfl, rfl⟩
          rw [isAbsolute, beq_eq_false_iff_ne]
          intro hhead
          obtain ⟨relative, hrelative⟩ := List.head?_eq_some_iff.mp hhead
          exact hslash relative hrelative

/-- A pattern that leads down from where it is taken. -/
structure IsDownward (entry : Path) : Prop where
  relative : entry.isAbsolute = false
  pieces : ∀ piece ∈ Path.pieces entry.toList,
    ∀ pattern ∈ (Pattern.parse (String.ofList piece)).toOption, pattern.IsDownward

instance : DecidablePred IsDownward := fun entry =>
  decidable_of_iff (entry.isAbsolute = false ∧ ∀ piece ∈ Path.pieces entry.toList,
      ∀ pattern ∈ (Pattern.parse (String.ofList piece)).toOption, pattern.IsDownward)
    ⟨fun ⟨relative, pieces⟩ => ⟨relative, pieces⟩, fun h => ⟨h.relative, h.pieces⟩⟩

/-- Where expanding a pattern that is taken from a base directory comes to by the texts of the base
directory. -/
def expandedBase (base : Path) : Path :=
  if base.isAbsolute then (base.texts.tail.map String.ofList).foldl childPath "/"
  else (base.texts.map String.ofList).foldl childPath "."

/-- Expanding a pattern that is taken from a base directory without wildcards comes to the texts of
the pattern after those of the base directory. -/
theorem exists_of_expand_join {base entry : Path} (hbase : IsLiteral base.toList)
    (hentry : entry.isAbsolute = false) {paths : List Path}
    (h : expand files (base.join entry) = .ok paths) {reached : Path} (hreached : reached ∈ paths) :
    ∃ patterns, Parses entry.texts patterns ∧
      reached ∈ matchingPaths files patterns (expandedBase base) := by
  have hjoin := texts_join base hentry
  have hliteral : ∀ piece ∈ base.texts, IsLiteral piece := fun piece hpiece c hc =>
    hbase c (mem_of_mem_pieces (mem_pieces_of_mem_texts hpiece) hc).1
  obtain ⟨-, -, -, -, -, habsolute⟩ := exists_front base hentry
  obtain ⟨relative, patterns, scope, hparses, rfl, htext⟩ := exists_of_expand h
  rw [expandedBase, ← habsolute]
  rcases htext with ⟨hslash, rfl⟩ | ⟨hrelative, rfl, rfl⟩
  · have hroot : (base.join entry).isAbsolute = true := by
      rw [isAbsolute, hslash]
      rfl
    rw [if_pos hroot]
    rw [habsolute] at hroot
    obtain ⟨front, hfront⟩ := exists_texts_of_isAbsolute hroot
    rw [hfront] at hjoin hliteral ⊢
    rw [texts, hslash, componentTexts_cons_slash, List.cons_append, List.cons.injEq] at hjoin
    rw [hjoin.2] at hparses
    exact exists_of_literal_front hparses (List.forall_mem_cons.mp hliteral).2 hreached
  · rw [if_neg (by simp [hrelative])]
    rw [← texts, hjoin] at hparses
    exact exists_of_literal_front hparses hliteral hreached

/-- A pattern that matches neither `.` nor `..` in place of one of its pieces leads from the base
directory on with names, and with pieces of its own that have no wildcards. -/
theorem exists_pieces_of_expand (named : files.WellNamed) {base entry : Path}
    (hbase : IsLiteral base.toList) (hentry : entry.isAbsolute = false)
    (hwild : isPattern entry = true)
    (hspecial : ∀ piece ∈ entry.texts, ∀ pattern ∈ (Pattern.parse (String.ofList piece)).toOption,
      pattern.literal? = none → specialPaths "" pattern = [])
    {paths : List Path} (hpaths : expand files (base.join entry) = .ok paths) {reached : Path}
    (h : reached ∈ paths) :
    ∃ pieces : List String, reached = pieces.foldl childPath (expandedBase base) ∧
      (∀ piece ∈ pieces, IsName piece ∨ piece.toList ∈ entry.texts ∧ IsLiteral piece.toList) ∧
      ∃ piece ∈ pieces, IsName piece := by
  obtain ⟨patterns, hparses, hreached⟩ := exists_of_expand_join hbase hentry hpaths h
  have hspecial : ∀ pattern ∈ patterns, pattern.literal? = none →
      specialPaths "" pattern = [] := by
    intro pattern hpattern
    obtain ⟨piece, hpiece, hparse⟩ := hparses.exists_piece hpattern
    exact hspecial piece hpiece pattern (by rw [hparse]; rfl)
  obtain ⟨pieces, hfold, hpieces, hname⟩ := exists_pieces_of_matchingPaths named hspecial hreached
  refine ⟨pieces, hfold, fun piece hpiece => (hpieces piece hpiece).imp_right ?_, hname ?_⟩
  · rintro ⟨pattern, hpattern, hliteral⟩
    obtain ⟨text, htext, hparse⟩ := hparses.exists_piece hpattern
    obtain ⟨rfl, hisLiteral⟩ := of_literal? hparse hliteral
    rw [String.toList_ofList] at hisLiteral ⊢
    exact ⟨htext, hisLiteral⟩
  · obtain ⟨piece, hpiece, hmeta⟩ := exists_piece_of_isPattern hwild
    have hne : piece ≠ [] := fun hnil => hmeta (hnil ▸ fun _ hc => absurd hc List.not_mem_nil)
    obtain ⟨pattern, hpattern, hparse⟩ := hparses.exists_pattern (mem_texts_of_ne_nil hpiece hne)
    refine ⟨pattern, hpattern, Option.eq_none_iff_forall_ne_some.mpr fun name hname => hmeta ?_⟩
    simpa using (of_literal? hparse hname).2

theorem spells_expandedBase (base : Path) : Spells (expandedBase base) base.trail := by
  have hslash : ∀ piece ∈ base.texts.map String.ofList, '/' ∉ piece.toList := by
    intro piece hpiece
    obtain ⟨text, htext, rfl⟩ := List.mem_map.mp hpiece
    rw [String.toList_ofList]
    exact slash_notMem_of_mem_texts htext
  rw [expandedBase, trail, ← stepsOf_texts]
  cases habsolute : base.isAbsolute with
  | true =>
      obtain ⟨front, hfront⟩ := exists_texts_of_isAbsolute habsolute
      rw [hfront] at hslash ⊢
      have hscope : Spells "/" [.root] := ⟨by decide, .inl (by decide)⟩
      have hspells := hscope.foldl_childPath (List.forall_mem_cons.mp hslash).2
      rwa [map_toList_map_ofList] at hspells
  | false =>
      have hscope : Spells "." [] := ⟨by decide, .inr ⟨rfl, by decide⟩⟩
      have hspells := hscope.foldl_childPath hslash
      rwa [map_toList_map_ofList] at hspells

/-- From a base directory without wildcards, a downward pattern leads to paths that are spelled with
the components of the base directory, but for a `.` in front, and with names after them. -/
theorem components_of_mem_expand (named : files.WellNamed) {base entry : Path}
    (hbase : IsLiteral base.toList) (hdown : IsDownward entry) (hwild : isPattern entry = true)
    {paths : List Path} (hpaths : expand files (base.join entry) = .ok paths) {reached : Path}
    (h : reached ∈ paths) :
    ∃ names : Place, names ≠ [] ∧ reached.components = base.trail ++ names.map .name := by
  have hspecial : ∀ piece ∈ entry.texts,
      ∀ pattern ∈ (Pattern.parse (String.ofList piece)).toOption,
        pattern.literal? = none → specialPaths "" pattern = [] := fun piece hpiece pattern hparse =>
    (hdown.pieces piece (mem_pieces_of_mem_texts hpiece) pattern hparse).special
  obtain ⟨pieces, rfl, hpieces, name, hmem, hname⟩ :=
    exists_pieces_of_expand named hbase hdown.relative hwild hspecial hpaths h
  have hslash : ∀ piece ∈ pieces, '/' ∉ piece.toList := by
    intro piece hpiece
    rcases hpieces piece hpiece with hname | ⟨htext, -⟩
    · exact hname.slash
    · exact slash_notMem_of_mem_texts htext
  have hparent : ['.', '.'] ∉ pieces.map String.toList := by
    intro hparent
    obtain ⟨piece, hpiece, hdots⟩ := List.mem_map.mp hparent
    rcases hpieces piece hpiece with hname | ⟨htext, hliteral⟩
    · exact hname.notParent hdots
    · have hparse := parse_of_isLiteral hliteral
      have hpattern := hdown.pieces _ (mem_pieces_of_mem_texts htext) (piece.toList.map .char)
        (by rw [String.ofList_toList, hparse]; rfl)
      rw [hdots] at hpattern
      exact hpattern.literal (by decide)
  obtain ⟨names, hnames⟩ := exists_names_of_stepsOf hparent
  have hspells := (spells_expandedBase base).foldl_childPath hslash
  rw [hnames] at hspells
  have hnamesNe : names ≠ [] := by
    rintro rfl
    have hstep : .name name ∈ stepsOf (pieces.map String.toList) :=
      List.mem_filterMap.mpr ⟨_, List.mem_map_of_mem hmem, ofPiece?_of_isName hname false⟩
    rw [hnames] at hstep
    cases hstep
  refine ⟨names, hnamesNe, hspells.components.resolve_right fun hnil => hnamesNe ?_⟩
  exact List.map_eq_nil_iff.mp (List.append_eq_nil_iff.mp hnil.1).2

end Glob

end ResourceLanguage
