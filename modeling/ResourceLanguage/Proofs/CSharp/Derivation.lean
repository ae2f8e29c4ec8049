import ResourceLanguage.Proofs.CSharp.Opening

/-!
How the members of a file are read. Main statements: every node of a file is read from the tokens
before those of the next node (`parsed_fileNodes`), and names and byte ranges are taken from these
tokens (`Parsed.standsIn`).
-/

namespace ResourceLanguage.CSharp

open ResourceLanguage.Text

/-! ### Derivations -/

/-- Consecutive nodes are read from the front of `tokens`, and `rest` is left. -/
inductive Parsed : List Token → List Node → List Token → Prop where
  | nil (tokens : List Token) : Parsed tokens [] tokens
  | complete {first : Token} {tail middle rest : List Token} {node : Node} {nodes : List Node}
      (hreads : Opening.Reads first.span.start (first :: tail) (.complete node middle))
      (hmore : Parsed middle nodes rest) : Parsed (first :: tail) (node :: nodes) rest
  | closed {first last : Token} {tail body closing middle rest : List Token} {owner : Owner}
      {inner nodes : List Node}
      (hreads : Opening.Reads first.span.start (first :: tail) (.block owner body))
      (hinner : Parsed body inner (closing ++ last :: middle))
      (hmore : Parsed middle nodes rest) :
      Parsed (first :: tail) (owner.node last.span.stop inner :: nodes) rest
  | unclosed {first : Token} {tail body rest : List Token} {owner : Owner} {inner : List Node}
      (hreads : Opening.Reads first.span.start (first :: tail) (.block owner body))
      (hinner : Parsed body inner rest) : Parsed (first :: tail) [.loose first.span inner] rest
  -- A closing bracket that nothing opened stands between the nodes.
  | stray {bracket : Token} {tokens middle rest : List Token} {nodes nodes' : List Node}
      (hread : Parsed tokens nodes (bracket :: middle)) (hmore : Parsed middle nodes' rest) :
      Parsed tokens (nodes ++ nodes') rest

section Members

variable {first : Token} {tail body rest : List Token} (hcloses : ¬first.closes = true)

include hcloses

theorem members_of_complete {node : Node}
    (hopening : Opening.ofTokens first tail = .complete node rest) :
    (members (first :: tail)).nodes = node :: (members rest).nodes ∧
      (members (first :: tail)).rest = (members rest).rest := by
  rw [members, if_neg hcloses]
  split
  · rename_i heq
    rw [hopening] at heq
    cases heq
    exact ⟨rfl, rfl⟩
  · rename_i heq
    rw [hopening] at heq
    cases heq

theorem members_of_closed {owner : Owner} {stop : Nat}
    (hopening : Opening.ofTokens first tail = .block owner body)
    (hclose : closeGroup? (members body).rest = some (stop, rest)) :
    (members (first :: tail)).nodes =
        owner.node stop (members body).nodes :: (members rest).nodes ∧
      (members (first :: tail)).rest = (members rest).rest := by
  rw [members, if_neg hcloses]
  split
  · rename_i heq
    rw [hopening] at heq
    cases heq
  · rename_i heq
    rw [hopening] at heq
    cases heq
    dsimp only
    split
    · rename_i heq
      rw [hclose] at heq
      cases heq
      exact ⟨rfl, rfl⟩
    · rename_i heq
      rw [hclose] at heq
      cases heq

theorem members_of_unclosed {owner : Owner}
    (hopening : Opening.ofTokens first tail = .block owner body)
    (hclose : closeGroup? (members body).rest = none) :
    (members (first :: tail)).nodes = [.loose first.span (members body).nodes] ∧
      (members (first :: tail)).rest = (members body).rest := by
  rw [members, if_neg hcloses]
  split
  · rename_i heq
    rw [hopening] at heq
    cases heq
  · rename_i heq
    rw [hopening] at heq
    cases heq
    dsimp only
    split
    · rename_i heq
      rw [hclose] at heq
      cases heq
    · exact ⟨rfl, rfl⟩

end Members

theorem parsed_members (tokens : List Token) :
    Parsed tokens (members tokens).nodes (members tokens).rest := by
  induction tokens using members.induct with
  | case1 =>
      rw [members]
      exact .nil []
  | case2 first tail hcloses =>
      rw [members, if_pos hcloses]
      exact .nil (first :: tail)
  | case3 first tail hcloses node rest hopening _ ih =>
      have hreads := Opening.reads_ofTokens first tail
      rw [hopening] at hreads
      obtain ⟨hnodes, hrest⟩ := members_of_complete hcloses hopening
      rw [hnodes, hrest]
      exact .complete hreads ih
  | case4 first tail hcloses owner body hopening _ inner stop rest hclose _ ihbody ihrest =>
      have hreads := Opening.reads_ofTokens first tail
      rw [hopening] at hreads
      obtain ⟨hnodes, hrest⟩ := members_of_closed hcloses hopening hclose
      rw [hnodes, hrest]
      obtain ⟨closing, last, hinner, rfl⟩ := exists_of_closeGroup? hclose
      exact .closed hreads (hinner ▸ ihbody) ihrest
  | case5 first tail hcloses owner body hopening _ inner hclose ih =>
      have hreads := Opening.reads_ofTokens first tail
      rw [hopening] at hreads
      obtain ⟨hnodes, hrest⟩ := members_of_unclosed hcloses hopening hclose
      rw [hnodes, hrest]
      exact .unclosed hreads ih

theorem parsed_fileNodes (tokens : List Token) : Parsed tokens (fileNodes tokens) [] := by
  induction tokens using fileNodes.induct with
  | case1 tokens read hrest =>
      have hread : Parsed tokens read.nodes read.rest := parsed_members tokens
      rw [hrest] at hread
      rw [fileNodes]
      split
      · exact hread
      · rename_i heq
        rw [hrest] at heq
        cases heq
  | case2 tokens read bracket rest hrest ih =>
      have hread : Parsed tokens read.nodes read.rest := parsed_members tokens
      rw [hrest] at hread
      rw [fileNodes]
      split
      · rename_i heq
        rw [hrest] at heq
        cases heq
      · rename_i heq
        rw [hrest] at heq
        cases heq
        exact .stray hread ih

/-! ### Names and byte ranges -/

/-- All byte ranges of a tree begin and end with tokens, and the names of types are words among
them. -/
def StandsIn (tokens : List Token) (nodes : List Node) : Prop :=
  ∀ node ∈ nodesOf nodes, FromTokens tokens node.span ∧ ∀ head, node.head? = some head →
    ∃ token ∈ tokens, token.isName = true ∧ head.name = token.span

namespace StandsIn

variable {tokens : List Token} {nodes : List Node}

theorem nil (tokens : List Token) : StandsIn tokens [] :=
  fun _ hnode => absurd hnode List.not_mem_nil

theorem of_subset {all : List Token} (h : StandsIn tokens nodes) (hsub : tokens ⊆ all) :
    StandsIn all nodes := by
  intro node hnode
  refine ⟨(h node hnode).1.mono hsub, fun head hhead => ?_⟩
  obtain ⟨token, htoken, hname⟩ := (h node hnode).2 head hhead
  exact ⟨token, hsub htoken, hname⟩

theorem append {nodes' : List Node} (h : StandsIn tokens nodes) (h' : StandsIn tokens nodes') :
    StandsIn tokens (nodes ++ nodes') := by
  rw [StandsIn, nodesOf_append]
  exact List.forall_mem_append.mpr ⟨h, h'⟩

theorem cons {node : Node} (hnode : StandsIn tokens [node]) (h : StandsIn tokens nodes) :
    StandsIn tokens (node :: nodes) := hnode.append h

theorem singleton {node : Node} (hspan : FromTokens tokens node.span)
    (hname : ∀ head, node.head? = some head →
      ∃ token ∈ tokens, token.isName = true ∧ head.name = token.span)
    (h : StandsIn tokens node.children) : StandsIn tokens [node] := by
  rw [StandsIn, nodesOf_cons]
  refine List.forall_mem_cons.mpr ⟨⟨hspan, hname⟩, ?_⟩
  rw [show nodesOf [] = [] from rfl, List.append_nil]
  exact h

theorem loose {first : Token} (hfirst : first ∈ tokens) (h : StandsIn tokens nodes) :
    StandsIn tokens [.loose first.span nodes] := by
  refine singleton ?_ (fun head hhead => by cases hhead) h
  rw [Node.loose]
  cases hlast : nodes.getLast? with
  | none => exact ⟨first, hfirst, first, hfirst, rfl⟩
  | some last =>
      obtain ⟨_, _, token, htoken, hspan⟩ :=
        (h last (subset_nodesOf nodes (List.mem_of_getLast? hlast))).1
      exact ⟨first, hfirst, token, htoken, by rw [Option.elim_some, hspan]⟩

theorem owner {first last : Token} {all rest : List Token} {owner : Owner}
    (howner : owner.Reads first.span.start all rest) (hsub : all ⊆ tokens)
    (hfirst : first ∈ tokens) (hlast : last ∈ tokens) (h : StandsIn tokens nodes) :
    StandsIn tokens [owner.node last.span.stop nodes] := by
  obtain ⟨front, names, middle, begin, finish, htokens, hbegin, hfinish, hname⟩ := howner.name
  have hmem : ∀ token ∈ names, token ∈ tokens := fun token htoken =>
    hsub (by simp [htokens, htoken])
  refine singleton ?_ (fun head hhead => ?_) (cons (singleton ?_ ?_ (nil _)) h)
  · exact ⟨first, hfirst, last, hlast, by rw [Owner.node, howner.start]⟩
  · obtain ⟨hkind, hheadName, -⟩ := Node.head?_eq_some_iff.mp hhead
    obtain ⟨token, htoken, hword, hspan⟩ := howner.word head.kind hkind
    have hsame : owner.name = head.name := Option.some.inj hheadName
    exact ⟨token, hsub htoken, hword, hsame ▸ hspan⟩
  · exact ⟨begin, hmem begin (List.mem_of_head? hbegin), finish,
      hmem finish (List.mem_of_getLast? hfinish), hname⟩
  · intro head hhead
    cases hhead

end StandsIn

namespace Opening.Reads

variable {first : Token} {tail rest : List Token}

theorem suffix {o : Opening} (h : Reads first.span.start (first :: tail) o) :
    o.rest <:+ first :: tail := by
  cases h with
  | plain htokens => exact ⟨_, htokens.symm⟩
  | line howner => exact (List.suffix_cons _ _).trans howner.suffix
  | block howner => exact howner.suffix

theorem standsIn_of_complete {node : Node}
    (h : Reads first.span.start (first :: tail) (.complete node rest)) :
    StandsIn (first :: tail) [node] := by
  cases h with
  | plain htokens hfirst =>
      exact .loose (by rw [htokens]; exact List.mem_append_left _ hfirst) (.nil _)
  | line howner =>
      exact .owner howner (List.Subset.refl _) List.mem_cons_self
        (howner.suffix.subset List.mem_cons_self) (.nil _)

end Opening.Reads

theorem suffix_append_cons (closing middle : List Token) (last : Token) :
    middle <:+ closing ++ last :: middle :=
  (List.suffix_cons last middle).trans (List.suffix_append closing _)

theorem Opening.Reads.owner {start : Nat} {tokens rest : List Token} {owner : Owner}
    (h : Opening.Reads start tokens (.block owner rest)) : owner.Reads start tokens rest := by
  cases h with
  | block howner => exact howner

namespace Parsed

variable {tokens rest : List Token} {nodes : List Node}

theorem suffix (h : Parsed tokens nodes rest) : rest <:+ tokens := by
  induction h with
  | nil tokens => exact List.suffix_refl tokens
  | complete hreads _ ih => exact ih.trans hreads.suffix
  | @closed _ last _ _ closing middle _ _ _ _ hreads _ _ ihinner ihmore =>
      have hmiddle := suffix_append_cons closing middle last
      exact ((ihmore.trans hmiddle).trans ihinner).trans hreads.suffix
  | unclosed hreads _ ih => exact ih.trans hreads.suffix
  | @stray bracket _ middle _ _ _ _ _ ihread ihmore =>
      exact (ihmore.trans (List.suffix_cons bracket middle)).trans ihread

theorem standsIn (h : Parsed tokens nodes rest) : StandsIn tokens nodes := by
  induction h with
  | nil tokens => exact .nil tokens
  | complete hreads _ ih =>
      exact hreads.standsIn_of_complete.cons (ih.of_subset hreads.suffix.subset)
  | @closed _ last _ _ closing middle _ _ _ _ hreads hinner _ ihinner ihmore =>
      have hbody := hinner.suffix.trans hreads.suffix
      have hlast : last ∈ _ :: _ := hbody.subset (List.mem_append_right closing List.mem_cons_self)
      have hmiddle := suffix_append_cons closing middle last
      have hgroup := StandsIn.owner hreads.owner (List.Subset.refl _) List.mem_cons_self hlast
        (ihinner.of_subset hreads.suffix.subset)
      exact hgroup.cons (ihmore.of_subset (hmiddle.trans hbody).subset)
  | unclosed hreads _ ih => exact .loose List.mem_cons_self (ih.of_subset hreads.suffix.subset)
  | @stray bracket _ middle _ _ _ hread _ ihread ihmore =>
      exact ihread.append
        (ihmore.of_subset ((List.suffix_cons bracket middle).trans hread.suffix).subset)

end Parsed

theorem standsIn_parse (cs : List Char) : StandsIn (Token.ofText cs) (parse cs) :=
  (parsed_fileNodes (Token.ofText cs)).standsIn

end ResourceLanguage.CSharp
