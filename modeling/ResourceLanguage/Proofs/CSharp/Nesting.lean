import ResourceLanguage.Proofs.ActiveCode.Crossing
import ResourceLanguage.Proofs.CSharp.Derivation
import ResourceLanguage.Proofs.CSharp.Innermost

/-!
The trees that are read from tokens are well formed: every node is read from the tokens before those
of the next one, and a name from the tokens at the front of its declaration. Names begin with
visible characters, so that they stand in the whole text where they stand in the active code.
-/

namespace ResourceLanguage.CSharp

open ResourceLanguage.Text

/-! ### Nodes between two offsets -/

namespace WellFormed

variable {nodes others : List Node}

theorem nil : WellFormed [] :=
  ⟨⟨fun _ hnode => absurd hnode List.not_mem_nil,
    ⟨.nil, fun _ hnode => absurd hnode List.not_mem_nil⟩⟩,
    fun _ hnode => absurd hnode List.not_mem_nil⟩

theorem append (h : WellFormed nodes) (h' : WellFormed others)
    (horder : ∀ node ∈ nodes, ∀ later ∈ others, node.span.stop ≤ later.span.start) :
    WellFormed (nodes ++ others) := by
  refine ⟨⟨?_, ?_⟩, ?_⟩
  · rw [nodesOf_append]
    exact List.forall_mem_append.mpr ⟨h.inside, h'.inside⟩
  · rw [nodesOf_append]
    exact ⟨List.pairwise_append.mpr ⟨h.siblings.1, h'.siblings.1, horder⟩,
      List.forall_mem_append.mpr ⟨h.siblings.2, h'.siblings.2⟩⟩
  · rw [nodesOf_append]
    exact List.forall_mem_append.mpr ⟨h.named, h'.named⟩

theorem singleton {node : Node} (h : WellFormed node.children)
    (hinside : ∀ child ∈ node.children, node.span.Covers child.span)
    (hnamed : node.isType = true → ∃ name ∈ node.children,
      node.children.find? (·.isName) = some name ∧ name.kind = .other ∧ name.children = [] ∧
        name.span.start < name.span.stop) :
    WellFormed [node] := by
  have hnodes : nodesOf [node] = node :: nodesOf node.children := by
    rw [nodesOf_cons, nodesOf, List.append_nil]
  refine ⟨⟨?_, ?_⟩, ?_⟩
  · rw [hnodes]
    exact List.forall_mem_cons.mpr ⟨hinside, h.inside⟩
  · rw [hnodes]
    exact ⟨List.pairwise_singleton _ _, List.forall_mem_cons.mpr ⟨h.siblings.1, h.siblings.2⟩⟩
  · rw [hnodes]
    exact List.forall_mem_cons.mpr ⟨hnamed, h.named⟩

end WellFormed

/-- Well-formed nodes that lie between two offsets. -/
structure Lies (lo hi : Nat) (nodes : List Node) : Prop where
  le : lo ≤ hi
  wellFormed : WellFormed nodes
  bounds : ∀ node ∈ nodes,
    lo ≤ node.span.start ∧ node.span.start ≤ node.span.stop ∧ node.span.stop ≤ hi

namespace Lies

variable {lo hi : Nat} {nodes : List Node}

theorem nil (hle : lo ≤ hi) : Lies lo hi [] :=
  ⟨hle, .nil, fun _ hnode => absurd hnode List.not_mem_nil⟩

theorem mono {lo' hi' : Nat} (h : Lies lo hi nodes) (hlo : lo' ≤ lo) (hhi : hi ≤ hi') :
    Lies lo' hi' nodes where
  le := Nat.le_trans hlo (Nat.le_trans h.le hhi)
  wellFormed := h.wellFormed
  bounds node hnode := by
    have := h.bounds node hnode
    omega

/-- What lies behind a middle offset lies behind all that lies before it. -/
theorem append {middle : Nat} {later : List Node} (h : Lies lo middle nodes)
    (hlater : Lies middle hi later) : Lies lo hi (nodes ++ later) where
  le := Nat.le_trans h.le hlater.le
  wellFormed := h.wellFormed.append hlater.wellFormed fun node hnode other hother =>
    Nat.le_trans (h.bounds node hnode).2.2 (hlater.bounds other hother).1
  bounds := List.forall_mem_append.mpr
    ⟨(h.mono (Nat.le_refl lo) hlater.le).bounds, (hlater.mono h.le (Nat.le_refl hi)).bounds⟩

theorem leaf {span : Span} (isName : Bool) (hlo : lo ≤ span.start)
    (hspan : span.start ≤ span.stop) (hhi : span.stop ≤ hi) :
    Lies lo hi [⟨.other, span, isName, []⟩] where
  le := Nat.le_trans hlo (Nat.le_trans hspan hhi)
  wellFormed := .singleton .nil (fun _ hchild => absurd hchild List.not_mem_nil)
    fun htype => absurd htype Bool.false_ne_true
  bounds := List.forall_mem_singleton.mpr ⟨hlo, hspan, hhi⟩

/-- The members of a declaration lie between its name and its end. -/
theorem owner {owner : Owner} {middle stop : Nat} (hlo : lo ≤ owner.start)
    (hstart : owner.start ≤ owner.name.start) (hname : owner.name.start < owner.name.stop)
    (hmiddle : owner.name.stop ≤ middle) (h : Lies middle stop nodes) :
    Lies lo stop [owner.node stop nodes] := by
  have hchildren : Lies owner.start stop (⟨.other, owner.name, true, []⟩ :: nodes) :=
    (leaf true hstart (Nat.le_of_lt hname) hmiddle).append h
  refine ⟨Nat.le_trans hlo hchildren.le, .singleton hchildren.wellFormed ?_ fun _ => ?_,
    List.forall_mem_singleton.mpr ⟨hlo, hchildren.le, Nat.le_refl stop⟩⟩
  · intro child hchild
    obtain ⟨hbegin, -, hend⟩ := hchildren.bounds child hchild
    exact ⟨hbegin, hend⟩
  · exact ⟨_, List.mem_cons_self, rfl, rfl, rfl, hname⟩

/-- Nodes in order end where the last of them ends. -/
theorem loose {first : Span} (hlo : lo ≤ first.start) (hfirst : first.start ≤ first.stop)
    (hhi : first.stop ≤ hi) (h : Lies first.start hi nodes) :
    Lies lo hi [.loose first nodes] := by
  have hstop : ∀ child ∈ nodes, child.span.stop ≤ (nodes.getLast?.elim first (·.span)).stop := by
    intro child hchild
    obtain ⟨init, last, rfl⟩ := (List.eq_nil_or_concat nodes).resolve_left
      (List.ne_nil_of_mem hchild)
    rw [List.concat_eq_append] at hchild h ⊢
    rw [List.getLast?_append, List.getLast?_singleton, Option.some_or, Option.elim_some]
    rcases List.mem_append.mp hchild with hchild | hchild
    · have horder := (List.pairwise_append.mp h.wellFormed.siblings.1).2.2 child hchild last
        List.mem_cons_self
      have hbounds := h.bounds last (List.mem_append_right init List.mem_cons_self)
      omega
    · rw [List.mem_singleton.mp hchild]
  have hbounds : first.start ≤ (nodes.getLast?.elim first (·.span)).stop ∧
      (nodes.getLast?.elim first (·.span)).stop ≤ hi := by
    cases hlast : nodes.getLast? with
    | none => exact ⟨hfirst, hhi⟩
    | some last =>
        have := h.bounds last (List.mem_of_getLast? hlast)
        simp only [Option.elim_some]
        omega
  refine ⟨Nat.le_trans hlo h.le, .singleton h.wellFormed ?_ fun htype => ?_,
    List.forall_mem_singleton.mpr ⟨hlo, hbounds⟩⟩
  · exact fun child hchild => ⟨(h.bounds child hchild).1, hstop child hchild⟩
  · exact absurd htype Bool.false_ne_true

end Lies

/-! ### Nodes from tokens -/

namespace Token.Between

variable {lo hi : Nat}

theorem of_append_cons {token : Token} {front back : List Token}
    (h : Between lo hi (front ++ token :: back)) :
    lo ≤ token.span.start ∧ token.span.start < token.span.stop ∧
      Between token.span.stop hi back := by
  obtain ⟨middle, hfront, hmiddle, hlt, hback⟩ := h.exists_append
  exact ⟨Nat.le_trans hfront.le hmiddle, hlt, hback⟩

/-- Tokens cover a range from the first of them to the last. -/
theorem range {tokens : List Token} {first last : Token} (h : Between lo hi tokens)
    (hfirst : tokens.head? = some first) (hlast : tokens.getLast? = some last) :
    lo ≤ first.span.start ∧ first.span.start < last.span.stop ∧ last.span.stop ≤ hi := by
  cases tokens with
  | nil => cases hfirst
  | cons token tokens =>
      obtain rfl : token = first := Option.some.inj hfirst
      obtain ⟨hlo, hlt, hrest⟩ := h
      refine ⟨hlo, ?_⟩
      cases tokens with
      | nil =>
          obtain rfl : token = last := Option.some.inj hlast
          exact ⟨hlt, hrest⟩
      | cons next tokens =>
          obtain ⟨init, hinit⟩ := List.getLast?_eq_some_iff.mp
            ((List.getLast?_cons_cons).symm.trans hlast)
          rw [hinit] at hrest
          obtain ⟨hstart, hlast, hstop⟩ := hrest.of_append_cons
          exact ⟨by omega, hstop⟩

end Token.Between

/-- The name of a declaration lies between its beginning and what is left of the tokens. -/
theorem Owner.Reads.between {first : Token} {tail rest : List Token} {lo hi : Nat} {owner : Owner}
    (h : owner.Reads first.span.start (first :: tail) rest)
    (hbetween : Token.Between lo hi (first :: tail)) :
    ∃ middle, lo ≤ owner.start ∧ owner.start ≤ owner.name.start ∧
      owner.name.start < owner.name.stop ∧ owner.name.stop ≤ middle ∧
      Token.Between middle hi rest := by
  obtain ⟨front, names, skipped, begin, finish, htokens, hbegin, hfinish, hname⟩ := h.name
  have hfirst : Token.Between first.span.start hi (first :: tail) := ⟨Nat.le_refl _, hbetween.2⟩
  rw [htokens] at hfirst
  obtain ⟨start, hfront, hrest⟩ := hfirst.exists_append
  obtain ⟨stop, hnames, hrest⟩ := hrest.exists_append
  obtain ⟨middle, hskipped, hrest⟩ := hrest.exists_append
  obtain ⟨hstart, hlt, hstop⟩ := hnames.range hbegin hfinish
  rw [h.start, hname]
  exact ⟨middle, hbetween.1, Nat.le_trans hfront.le hstart, hlt, Nat.le_trans hstop hskipped.le,
    hrest⟩

theorem Opening.Reads.lies_of_complete {first : Token} {tail rest : List Token} {lo hi : Nat}
    {node : Node} (h : Reads first.span.start (first :: tail) (.complete node rest))
    (hbetween : Token.Between lo hi (first :: tail)) :
    ∃ middle, Lies lo middle [node] ∧ Token.Between middle hi rest := by
  cases h with
  | @plain token front _ htokens htoken =>
      rw [htokens] at hbetween
      obtain ⟨middle, hfront, hrest⟩ := hbetween.exists_append
      obtain ⟨before, after, rfl⟩ := List.append_of_mem htoken
      obtain ⟨hlo, hlt, hafter⟩ := hfront.of_append_cons
      have hle := Nat.le_of_lt hlt
      exact ⟨middle, .loose hlo hle hafter.le (.nil (Nat.le_trans hle hafter.le)), hrest⟩
  | @line owner last _ howner =>
      obtain ⟨middle, hlo, hstart, hname, hmiddle, hlast, hlt, hrest⟩ :=
        howner.between hbetween
      exact ⟨last.span.stop, .owner hlo hstart hname hmiddle (.nil (by omega)), hrest⟩

/-- The nodes that are read lie between the offset where reading begins and some middle offset, and
the tokens that are left stand behind that. -/
theorem Parsed.lies {tokens rest : List Token} {nodes : List Node} (h : Parsed tokens nodes rest)
    {lo hi : Nat} (hbetween : Token.Between lo hi tokens) :
    ∃ middle, Lies lo middle nodes ∧ Token.Between middle hi rest := by
  induction h generalizing lo with
  | nil tokens => exact ⟨lo, .nil (Nat.le_refl lo), hbetween⟩
  | complete hreads _ ih =>
      obtain ⟨middle, hnode, hmiddle⟩ := hreads.lies_of_complete hbetween
      obtain ⟨stop, hnodes, hrest⟩ := ih hmiddle
      exact ⟨stop, hnode.append hnodes, hrest⟩
  | @closed _ last _ _ _ _ _ _ inner _ hreads _ _ ihinner ihmore =>
      obtain ⟨start, hlo, hstart, hname, hbegin, hbody⟩ := hreads.owner.between hbetween
      obtain ⟨middle, hinner, hclosing⟩ := ihinner hbody
      -- The closing token stands behind all members, so they lie in the group.
      obtain ⟨hle, hlt, hmore⟩ := hclosing.of_append_cons
      obtain ⟨stop, hnodes, hrest⟩ := ihmore hmore
      have hmembers : Lies start last.span.stop inner := hinner.mono (Nat.le_refl start) (by omega)
      exact ⟨stop, (Lies.owner hlo hstart hname hbegin hmembers).append hnodes, hrest⟩
  | unclosed hreads _ ih =>
      obtain ⟨hlo, hlt, htail⟩ := hbetween
      obtain ⟨before, rfl⟩ := hreads.owner.suffix_tail
      obtain ⟨start, hbefore, hbody⟩ := htail.exists_append
      obtain ⟨middle, hinner, hrest⟩ := ih hbody
      have hle := hbefore.le
      have hbegin := hinner.le
      exact ⟨middle, .loose hlo (by omega) (by omega) (hinner.mono (by omega) (Nat.le_refl middle)),
        hrest⟩
  | stray _ _ ihread ihmore =>
      obtain ⟨middle, hnodes, hle, hlt, hmore⟩ := ihread hbetween
      obtain ⟨stop, hnodes', hrest⟩ := ihmore hmore
      exact ⟨stop, hnodes.append (hnodes'.mono (by omega) (Nat.le_refl stop)), hrest⟩

theorem wellFormed_parse (cs : List Char) : WellFormed (parse cs) := by
  obtain ⟨middle, hnodes, -⟩ := (parsed_fileNodes (Token.ofText cs)).lies (Token.between_ofText cs)
  exact hnodes.wellFormed

/-! ### Names in the text -/

theorem FromTokens.visibleAt {cs : List Char} {span : Span}
    (h : FromTokens (Token.ofText cs) span) : VisibleAt cs span.start := by
  obtain ⟨first, hfirst, last, -, rfl⟩ := h
  obtain ⟨front, c, rest, back, hcs, hspace, hspan⟩ := Token.exists_append_of_mem_ofText hfirst
  exact ⟨front, c, rest ++ back, hcs, (Bool.or_eq_false_iff.mp hspace).1, by rw [hspan]⟩

/-- The name of a type is a word. -/
theorem exists_word {cs : List Char} {head : Head} (h : head ∈ headsOf (parse cs)) :
    VisibleAt cs head.name.start ∧ IsWordText (slice cs head.name) := by
  obtain ⟨node, hnode, hhead⟩ := List.mem_filterMap.mp h
  obtain ⟨token, htoken, hisName, hspan⟩ := (standsIn_parse cs node hnode).2 head hhead
  obtain ⟨front, word, back, hcs, hword, hplace⟩ := Token.exists_of_mem_ofText htoken hisName
  refine ⟨FromTokens.visibleAt ⟨token, htoken, token, htoken, hspan⟩, ?_⟩
  rw [hspan, hplace, hcs, slice_append]
  exact hword

theorem readable_parse (cs : List Char) : Readable cs (parse cs) where
  types head hhead := .inl (exists_word hhead).1
  lines head hhead := (exists_word hhead).2.notMem (by decide) (by decide)
  namespaces name hname := by
    obtain ⟨node, hnode, hinner⟩ := List.mem_filterMap.mp hname
    obtain ⟨child, hchild, rfl⟩ : ∃ child ∈ node.children, child.span = name := by
      unfold Node.innerName? at hinner
      split at hinner
      · obtain ⟨child, hfind, hspan⟩ := Option.map_eq_some_iff.mp hinner
        exact ⟨child, List.mem_of_find?_eq_some hfind, hspan⟩
      · obtain ⟨child, hfind, hspan⟩ := Option.map_eq_some_iff.mp hinner
        exact ⟨child, List.mem_of_find?_eq_some hfind, hspan⟩
      · cases hinner
    have hmem := nodesOf_children_subset hnode (subset_nodesOf _ hchild)
    exact .inl (standsIn_parse cs child hmem).1.visibleAt

namespace SourceFile

/-- Where the tree of the active code is as expected, so is the file. -/
theorem WellFormed.of_readable [Grammar] {path source : String} {symbols : Symbols}
    (h : CSharp.WellFormed (parse path source symbols).tree)
    (hreadable : Readable (activeCode source.toList symbols) (parse path source symbols).tree) :
    (parse path source symbols).WellFormed := by
  refine ⟨h, fun head hhead => ?_⟩
  rcases hreadable.types head hhead with hvisible | ⟨-, hvisible⟩
  · obtain ⟨front, c, back, hactive, hblank, hstart⟩ := hvisible
    obtain ⟨front', back', hsource, hsize⟩ := exists_append_of_activeCode hactive hblank
    exact ⟨front', c :: back', hsource, hsize.trans hstart⟩
  · obtain ⟨front, c, back, hactive, hblank, hstart⟩ := hvisible
    obtain ⟨front', back', hsource, hsize⟩ := exists_append_of_activeCode hactive hblank
    refine ⟨front' ++ [c], back', by rw [List.append_assoc]; exact hsource, ?_⟩
    rw [← hstart, byteSize_append, byteSize_append, hsize]

variable {path source : String} {symbols : Symbols}

theorem wellFormed_parse (path source : String) (symbols : Symbols) :
    (parse path source symbols).WellFormed :=
  .of_readable (CSharp.wellFormed_parse _) (readable_parse _)

theorem notMem_identifier {declaration : Declaration}
    (h : declaration ∈ (parse path source symbols).declarations) {c : Char}
    (hc : Lexeme.isWordChar c = false) (hat : c ≠ '@') : c ∉ declaration.identifier.toList := by
  obtain ⟨head, hhead, namespaces, parent, rfl⟩ := exists_head h
  obtain ⟨⟨front, d, back, hactive, hblank, hstart⟩, hword⟩ := exists_word hhead
  have hfeed := hword.notMem (c := '\n') (by decide) (by decide)
  have hslice : slice source.toList head.name = _ := slice_activeCode hactive hblank hstart hfeed
  rw [Head.declaration, String.toList_ofList]
  intro hmem
  rw [show (parse path source symbols).source = source from rfl, hslice] at hmem
  exact hword.notMem hc hat ((List.dropWhile_sublist _).subset hmem)

end SourceFile

end ResourceLanguage.CSharp
