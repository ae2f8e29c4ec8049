import Mathlib.Algebra.BigOperators.Group.Finset.Basic
import ResourceLanguage.Proofs.Resource.Restored
import ResourceLanguage.Proofs.Workspace

/-!
Restoring the resource files at some places, one after the other. Restorations at different places
have nothing to do with each other, so all that counts is how often each place occurs.
-/

namespace ResourceLanguage

open ResourceLanguage.Text

/-! ### One restoration -/

namespace Workspace

def restoreAt (files : Workspace) (place : Place) : Workspace :=
  match files.content? place with
  | some content =>
      if restoreContent content = content then files
      else files.put place (.file (restoreContent content))
  | none => files

/-- A file without a text that has the marker. -/
def Unmarked (files : Workspace) (place : Place) : Prop :=
  ∀ content, files.content? place = some content → ¬ContentMarked content

theorem restoreAt_of_unmarked {files : Workspace} {place : Place}
    (h : files.Unmarked place) : files.restoreAt place = files := by
  rw [restoreAt]
  split
  · rename_i content hcontent
    exact if_pos (restoreContent_of_not_marked (h content hcontent))
  · rfl

theorem restoreAt_of_marked {files : Workspace} {place : Place} {content : List UInt8}
    (h : files.content? place = some content) (hmarked : ContentMarked content) :
    files.restoreAt place = files.put place (.file (restoreContent content)) := by
  rw [restoreAt, h]
  exact if_neg fun heq => restoreContent_eq_self_iff.mp heq hmarked

theorem unmarked_or_marked (files : Workspace) (place : Place) :
    files.Unmarked place ∨ ∃ content, files.content? place = some content ∧
      ContentMarked content := by
  by_cases h : ∃ content, files.content? place = some content ∧ ContentMarked content
  · exact .inr h
  · exact .inl fun content hcontent hmarked => h ⟨content, hcontent, hmarked⟩

/-- A text without the marker is at a place without a marked text. -/
theorem unmarked_of_readText {files : Workspace} {path : Path} {text : String} {place : Place}
    (htext : files.readText path = .ok text) (hplace : files.resolve path = .ok place)
    (hmarker : (textLines text).any hasMarker = false) : files.Unmarked place := by
  intro content hcontent ⟨text', htext', hmarked⟩
  have hread : files.readText path = .ok text' :=
    readText_eq_ok_iff.mpr ⟨place, content, hplace, hcontent, htext'⟩
  rw [htext, Except.ok.injEq] at hread
  rw [hread, hmarked] at hmarker
  exact Bool.noConfusion hmarker

theorem sameTree_restoreAt (files : Workspace) (place : Place) :
    SameTree (files.restoreAt place) files := by
  rcases files.unmarked_or_marked place with h | ⟨content, hcontent, hmarked⟩
  · rw [restoreAt_of_unmarked h]
    exact .refl files
  · rw [restoreAt_of_marked hcontent hmarked]
    exact sameTree_put (content?_eq_some_iff.mp hcontent) _

theorem content?_put {files : Workspace} {place : Place} {old : List UInt8}
    (h : files.entry? place = some (.file old)) (content : List UInt8) (other : Place) :
    (files.put place (.file content)).content? other =
      if other = place then some content else files.content? other := by
  have hplace := ne_nil_of_entry?_file h
  unfold content?
  rw [entry?_put hplace (any_entries hplace h)]
  by_cases hother : other = place
  · simp [hother]
  · simp [hother]

/-- A restoration acts on the content at its place, and leaves every other content alone. -/
theorem content?_restoreAt (files : Workspace) (place other : Place) :
    (files.restoreAt place).content? other =
      if other = place then (files.content? other).map restoreContent
      else files.content? other := by
  rcases files.unmarked_or_marked place with h | ⟨content, hcontent, hmarked⟩
  · rw [restoreAt_of_unmarked h]
    split
    · rename_i hother
      subst hother
      cases hcontent : files.content? other with
      | none => rfl
      | some content =>
          rw [Option.map_some, restoreContent_of_not_marked (h content hcontent)]
    · rfl
  · rw [restoreAt_of_marked hcontent hmarked, content?_put (content?_eq_some_iff.mp hcontent)]
    split
    · rename_i hother
      subst hother
      rw [hcontent, Option.map_some]
    · rfl

/-- Exactly the restorations at places with a marked text change the files. -/
theorem restoreAt_eq_self_iff {files : Workspace} {place : Place} :
    files.restoreAt place = files ↔ files.Unmarked place := by
  refine ⟨fun heq content hcontent hmarked => ?_, restoreAt_of_unmarked⟩
  have hafter := files.content?_restoreAt place place
  rw [heq, if_pos rfl, hcontent, Option.map_some, Option.some_inj] at hafter
  exact restoreContent_eq_self_iff.mp hafter.symm hmarked

theorem isOk_readText_restoreAt (files : Workspace) (place : Place) (path : Path) :
    ((files.restoreAt place).readText path).isOk = (files.readText path).isOk := by
  rw [Bool.eq_iff_iff, isOk_readText_iff, isOk_readText_iff,
    (files.sameTree_restoreAt place).resolve_eq]
  refine exists_congr fun other => ?_
  rw [content?_restoreAt]
  split
  · cases files.content? other with
    | none => simp
    | some content => simp [isSome_fromUTF8?_restoreContent]
  · rfl

theorem setEntry_comm {first second : Place} (hne : first ≠ second) (entry entry' : Entry)
    (old : Place × Entry) :
    setEntry second entry' (setEntry first entry old) =
      setEntry first entry (setEntry second entry' old) := by
  by_cases hfirst : old.1 = first
  · have hsecond : old.1 ≠ second := fun h => hne (hfirst.symm.trans h)
    simp [setEntry, hfirst, hne]
  · by_cases hsecond : old.1 = second
    · simp [setEntry, hsecond, Ne.symm hne]
    · simp [setEntry, hfirst, hsecond]

/-- Rewriting two files can be done in either order. -/
theorem put_comm {files : Workspace} {first second : Place} (hne : first ≠ second)
    {content content' : List UInt8} (hfirst : files.entry? first = some (.file content))
    (hsecond : files.entry? second = some (.file content')) (entry entry' : Entry) :
    (files.put first entry).put second entry' = (files.put second entry').put first entry := by
  have hany := any_entries (ne_nil_of_entry?_file hfirst) hfirst
  have hany' := any_entries (ne_nil_of_entry?_file hsecond) hsecond
  have hkeys (place place' : Place) (entry : Entry)
      (h : files.entries.any (·.1 == place) = true) :
      (files.entries.map (setEntry place' entry)).any (·.1 == place) = true := by
    simpa [List.any_map, Function.comp_def, setEntry_fst] using h
  rw [put_of_mem hany, put_of_mem hany', put_of_mem (hkeys second first entry hany'),
    put_of_mem (hkeys first second entry' hany), List.map_map, List.map_map]
  congr 2
  funext old
  exact setEntry_comm hne entry entry' old

/-- Restorations can be made in either order. -/
theorem restoreAt_comm (files : Workspace) (first second : Place) :
    (files.restoreAt first).restoreAt second = (files.restoreAt second).restoreAt first := by
  by_cases hne : first = second
  · rw [hne]
  · -- Neither restoration touches the content that the other one looks at.
    have hfirst : (files.restoreAt second).content? first = files.content? first := by
      rw [content?_restoreAt, if_neg hne]
    have hsecond : (files.restoreAt first).content? second = files.content? second := by
      rw [content?_restoreAt, if_neg (Ne.symm hne)]
    rcases files.unmarked_or_marked first with h | ⟨content, hcontent, hmarked⟩
    · have h' : (files.restoreAt second).Unmarked first := by rwa [Unmarked, hfirst]
      rw [restoreAt_of_unmarked h, restoreAt_of_unmarked h']
    · rcases files.unmarked_or_marked second with h | ⟨content', hcontent', hmarked'⟩
      · have h' : (files.restoreAt first).Unmarked second := by rwa [Unmarked, hsecond]
        rw [restoreAt_of_unmarked h, restoreAt_of_unmarked h']
      · rw [restoreAt_of_marked (hfirst.trans hcontent) hmarked,
          restoreAt_of_marked (hsecond.trans hcontent') hmarked',
          restoreAt_of_marked hcontent hmarked, restoreAt_of_marked hcontent' hmarked']
        exact put_comm hne (content?_eq_some_iff.mp hcontent)
          (content?_eq_some_iff.mp hcontent') _ _

/-! ### Restorations one after the other -/

/-- The files after the files at some places have been restored in turn. -/
def restoreAll (files : Workspace) (places : List Place) : Workspace :=
  places.foldl restoreAt files

@[simp] theorem restoreAll_nil (files : Workspace) : files.restoreAll [] = files := rfl

@[simp] theorem restoreAll_cons (files : Workspace) (place : Place) (places : List Place) :
    files.restoreAll (place :: places) = (files.restoreAt place).restoreAll places := rfl

theorem sameTree_restoreAll (files : Workspace) (places : List Place) :
    SameTree (files.restoreAll places) files := by
  induction places generalizing files with
  | nil => exact .refl files
  | cons place places ih => exact (ih _).trans (files.sameTree_restoreAt place)

/-- Each content is restored as often as its place occurs. -/
theorem content?_restoreAll (files : Workspace) (places : List Place) (place : Place) :
    (files.restoreAll places).content? place =
      (files.content? place).map restoreContent^[places.count place] := by
  induction places generalizing files with
  | nil => simp
  | cons first places ih =>
      rw [restoreAll_cons, ih, content?_restoreAt]
      by_cases hfirst : place = first
      · rw [if_pos hfirst, hfirst, List.count_cons_self, Option.map_map]
        rfl
      · rw [if_neg hfirst, List.count_cons_of_ne (Ne.symm hfirst)]

theorem read_restoreAll (files : Workspace) (places : List Place) {path : Path} {place : Place}
    (hpath : files.resolve path = .ok place) :
    (files.restoreAll places).read path =
      (files.read path).map restoreContent^[places.count place] :=
  read_of_sameTree (files.sameTree_restoreAll places)
    (fun other => files.content?_restoreAll places other) hpath

/-- Restorations change the contents at their places whose text has the marker, and no others. -/
theorem content?_restoreAll_ne_iff {files : Workspace} {places : List Place} {place : Place} :
    (files.restoreAll places).content? place ≠ files.content? place ↔
      place ∈ places ∧ ¬files.Unmarked place := by
  rw [content?_restoreAll, Unmarked]
  cases files.content? place with
  | none => simp
  | some content =>
      simp [iterate_restoreContent_eq_self_iff, restoreContent_eq_self_iff, List.count_eq_zero]

theorem read_restoreAll_ne_iff {files : Workspace} {places : List Place} {path : Path} :
    (files.restoreAll places).read path ≠ files.read path ↔
      ∃ place ∈ places, files.resolve path = .ok place ∧ ¬files.Unmarked place := by
  cases hpath : files.resolve path with
  | error error =>
      have hsame : (files.restoreAll places).read path = files.read path := by
        rw [read_eq, read_eq, (files.sameTree_restoreAll places).resolve_eq, hpath]
      simp [hsame]
  | ok place =>
      have hunmarked : files.Unmarked place ↔
          ∀ content, files.read path = .ok content → restoreContent content = content := by
        simp only [Unmarked, read_eq_ok_iff hpath, restoreContent_eq_self_iff]
      have hsame : (files.restoreAll places).read path = files.read path ↔
          place ∉ places ∨ files.Unmarked place := by
        rw [files.read_restoreAll places hpath, hunmarked, ← List.count_eq_zero]
        cases files.read path with
        | error error => simp [Except.map]
        | ok content => simp [Except.map, iterate_restoreContent_eq_self_iff]
      rw [Ne, hsame, not_or, not_not]
      constructor
      · rintro ⟨hmem, hmarked⟩
        exact ⟨place, hmem, rfl, hmarked⟩
      · rintro ⟨found, hmem, hfound, hmarked⟩
        obtain rfl := Except.ok.inj hfound
        exact ⟨hmem, hmarked⟩

/-- The order of the restorations makes no difference. -/
theorem restoreAll_perm (files : Workspace) {places places' : List Place}
    (h : places.Perm places') : files.restoreAll places = files.restoreAll places' :=
  h.foldl_eq' (fun first _ second _ files => files.restoreAt_comm first second) files

/-- Of the restorations of some labelled places in turn, those that change a file. -/
def changing {α : Type} (files : Workspace) : List (α × Place) → List (α × Place)
  | [] => []
  | target :: targets =>
      if files.restoreAt target.2 = files then files.changing targets
      else target :: (files.restoreAt target.2).changing targets

theorem changing_sublist {α : Type} (files : Workspace) (targets : List (α × Place)) :
    (files.changing targets).Sublist targets := by
  induction targets generalizing files with
  | nil => exact .slnil
  | cons target targets ih =>
      rw [changing]
      split
      · exact (ih files).cons target
      · exact (ih _).cons_cons target

end Workspace

/-- How many of the first `n` restorations of a content change it. -/
def changingSteps (n : ℕ) (content : List UInt8) : ℕ :=
  (List.range n).countP fun i => restoreContent^[i + 1] content ≠ restoreContent^[i] content

theorem changingSteps_succ (n : ℕ) (content : List UInt8) :
    changingSteps (n + 1) content =
      (if restoreContent content = content then 0 else 1) +
        changingSteps n (restoreContent content) := by
  rw [changingSteps, List.range_succ_eq_map, List.countP_cons, List.countP_map, Nat.add_comm]
  congr 1
  split <;> simp_all

theorem changingSteps_of_fixed {content : List UInt8} (h : restoreContent content = content)
    (n : ℕ) : changingSteps n content = 0 := by
  simp [changingSteps, Function.iterate_fixed h]

/-- Some of the first `n` restorations changes a content exactly when all together do. -/
theorem changingSteps_pos_iff {n : ℕ} {content : List UInt8} :
    0 < changingSteps n content ↔ restoreContent^[n] content ≠ content := by
  rw [Ne, iterate_restoreContent_eq_self_iff, not_or]
  constructor
  · intro hpos
    refine ⟨?_, fun hfixed => ?_⟩
    · rintro rfl
      exact absurd hpos (lt_irrefl 0)
    · rw [changingSteps_of_fixed hfixed] at hpos
      exact absurd hpos (lt_irrefl 0)
  · rintro ⟨hn, hchanged⟩
    obtain ⟨m, rfl⟩ := Nat.exists_eq_succ_of_ne_zero hn
    rw [changingSteps_succ, if_neg hchanged]
    omega

namespace Workspace

/-- The changes made at a place. -/
theorem count_changing {α : Type} (files : Workspace) (targets : List (α × Place))
    (place : Place) :
    ((files.changing targets).map Prod.snd).count place =
      (files.content? place).elim 0 (changingSteps ((targets.map Prod.snd).count place)) := by
  induction targets generalizing files with
  | nil => cases files.content? place <;> rfl
  | cons target targets ih =>
      rw [changing]
      by_cases hunmarked : files.Unmarked target.2
      · -- Nothing is changed now, and nothing will be by later restorations of the same place.
        rw [if_pos (restoreAt_eq_self_iff.mpr hunmarked), ih]
        by_cases hplace : target.2 = place
        · subst hplace
          cases hcontent : files.content? target.2 with
          | none => rfl
          | some content =>
              have hfixed := restoreContent_of_not_marked (hunmarked content hcontent)
              rw [Option.elim_some, Option.elim_some, changingSteps_of_fixed hfixed,
                changingSteps_of_fixed hfixed]
        · rw [List.map_cons, List.count_cons_of_ne hplace]
      · rw [if_neg fun heq => hunmarked (restoreAt_eq_self_iff.mp heq), List.map_cons,
          List.map_cons]
        by_cases hplace : target.2 = place
        · subst hplace
          obtain ⟨content, hcontent, hmarked⟩ :=
            (files.unmarked_or_marked target.2).resolve_left hunmarked
          have hchanged : restoreContent content ≠ content :=
            fun heq => restoreContent_eq_self_iff.mp heq hmarked
          rw [List.count_cons_self, List.count_cons_self, ih, content?_restoreAt, if_pos rfl,
            hcontent, Option.map_some, Option.elim_some, Option.elim_some, changingSteps_succ,
            if_neg hchanged, Nat.add_comm]
        · rw [List.count_cons_of_ne hplace, List.count_cons_of_ne hplace, ih, content?_restoreAt,
            if_neg (Ne.symm hplace)]

/-- The places of the changes are those whose content is another one in the end. -/
theorem mem_changing_iff {α : Type} (files : Workspace) (targets : List (α × Place))
    (place : Place) :
    place ∈ (files.changing targets).map Prod.snd ↔
      (files.restoreAll (targets.map Prod.snd)).content? place ≠ files.content? place := by
  rw [← List.count_pos_iff, count_changing, content?_restoreAll]
  cases files.content? place with
  | none => simp
  | some content => simp [changingSteps_pos_iff]

/-- The changes that restorations make to the files at some places. -/
theorem length_changing {α : Type} (files : Workspace) (targets : List (α × Place)) :
    (files.changing targets).length =
      ∑ place ∈ (targets.map Prod.snd).toFinset,
        (files.content? place).elim 0 (changingSteps ((targets.map Prod.snd).count place)) := by
  have hmem : ∀ place ∈ ((files.changing targets).map Prod.snd : Multiset Place),
      place ∈ (targets.map Prod.snd).toFinset := by
    intro place hplace
    rw [Multiset.mem_coe] at hplace
    rw [List.mem_toFinset]
    exact ((files.changing_sublist targets).map Prod.snd).subset hplace
  have hsum := Multiset.sum_count_eq_card hmem
  rw [Multiset.coe_card, List.length_map] at hsum
  rw [← hsum]
  refine Finset.sum_congr rfl fun place _ => ?_
  rw [Multiset.coe_count]
  convert files.count_changing targets place

end Workspace

end ResourceLanguage
