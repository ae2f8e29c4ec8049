import ResourceLanguage.Config.Discovery
import ResourceLanguage.Proofs.Path.Ancestors

/-!
Finding the configuration of a project. The search goes from parent to parent of the path at which
it starts, and this is a matter of how the path is written. Without a `..` in the path it goes up in
the tree, as far as the root for an absolute path, and no further than the current directory for a
relative one.
-/

namespace ResourceLanguage.Config

open ResourceLanguage.Path ResourceLanguage.Workspace

theorem isName_fileName : IsName fileName := by decide

theorem isName_repository : IsName ".git" := by decide

/-- The search goes on at the parent. -/
theorem find_eq (files : Workspace) (path : Path) :
    find files path =
      if files.pathExists (path.join fileName) then some (path.join fileName)
      else if files.pathExists (path.join ".git") then none
      else path.parent?.bind (find files) := by
  rw [find]
  cases hparent : path.parent? with
  | none =>
      rw [ancestors_of_parent?_eq_none hparent]
      rfl
  | some parent =>
      rw [ancestors_of_parent? hparent]
      rfl

/-! ### Governing directories -/

variable {files : Workspace}

def HasConfig (files : Workspace) (place : Place) : Prop :=
  (files.entry? (place ++ [fileName])).isSome = true

def IsRepository (files : Workspace) (place : Place) : Prop :=
  (files.entry? (place ++ [".git"])).isSome = true

instance : DecidablePred (HasConfig files) := fun _ => inferInstanceAs (Decidable (_ = _))

instance : DecidablePred (IsRepository files) := fun _ => inferInstanceAs (Decidable (_ = _))

/-- The directory whose configuration counts at a place: the nearest with a configuration file among
the place and the directories above it, if no nearer one is that of a repository. -/
structure Governs (files : Workspace) (place directory : Place) : Prop where
  above : directory <+: place
  config : HasConfig files directory
  nearest : ∀ nearer, directory <+: nearer → nearer <+: place → nearer ≠ directory →
    ¬HasConfig files nearer ∧ ¬IsRepository files nearer

variable {place directory : Place}

theorem governs_iff_of_hasConfig (h : HasConfig files place) :
    Governs files place directory ↔ directory = place := by
  constructor
  · intro hgoverns
    by_contra hne
    exact (hgoverns.nearest place hgoverns.above (List.prefix_refl place) (Ne.symm hne)).1 h
  · rintro rfl
    exact ⟨List.prefix_refl _, h, fun nearer hbelow habove hne =>
      absurd (habove.eq_of_length_le hbelow.length_le) hne⟩

theorem Governs.ne (hgoverns : Governs files place directory) (h : ¬HasConfig files place) :
    directory ≠ place := by
  rintro rfl
  exact h hgoverns.config

theorem not_governs_of_isRepository (hconfig : ¬HasConfig files place)
    (hrepository : IsRepository files place) : ¬Governs files place directory := fun hgoverns =>
  (hgoverns.nearest place hgoverns.above (List.prefix_refl place)
    (Ne.symm (hgoverns.ne hconfig))).2 hrepository

/-- Without a configuration file in it, a directory is governed from above, unless it is that of a
repository. -/
theorem governs_append_iff {name : String} (h : ¬HasConfig files (place ++ [name])) :
    Governs files (place ++ [name]) directory ↔
      ¬IsRepository files (place ++ [name]) ∧ Governs files place directory := by
  constructor
  · intro hgoverns
    have hne := hgoverns.ne h
    have habove : directory <+: place := (List.prefix_concat_iff.mp hgoverns.above).resolve_left hne
    refine ⟨(hgoverns.nearest _ hgoverns.above (List.prefix_refl _) (Ne.symm hne)).2, habove,
      hgoverns.config, fun nearer hbelow hnearer => ?_⟩
    exact hgoverns.nearest nearer hbelow (hnearer.trans (List.prefix_append _ _))
  · rintro ⟨hrepository, hgoverns⟩
    refine ⟨hgoverns.above.trans (List.prefix_append _ _), hgoverns.config, ?_⟩
    intro nearer hbelow hnearer hne
    rcases List.prefix_concat_iff.mp hnearer with rfl | hnearer
    · exact ⟨h, hrepository⟩
    · exact hgoverns.nearest nearer hbelow hnearer hne

/-! ### The search -/

theorem find_of_looksIn {path : Path} (h : files.LooksIn path place) :
    (HasConfig files place → find files path = some (path.join fileName) ∧
      files.resolve (path.join fileName) = .ok (place ++ [fileName])) ∧
    (¬HasConfig files place → IsRepository files place → find files path = none) ∧
    (¬HasConfig files place → ¬IsRepository files place →
      find files path = path.parent?.bind (find files)) := by
  rw [find_eq, h.pathExists_join isName_fileName, h.pathExists_join isName_repository]
  refine ⟨fun hconfig => ⟨if_pos hconfig, ?_⟩, fun hconfig hrepository => ?_,
    fun hconfig hrepository => ?_⟩
  · exact (h.resolve_join_iff isName_fileName).mpr ⟨hconfig, rfl⟩
  · exact (if_neg hconfig).trans (if_pos hrepository)
  · exact (if_neg hconfig).trans (if_neg hrepository)

/-- A step up leads out of a name, or stays where it is. -/
theorem exists_step {path parent : Path} (hup : .parent ∉ path.components)
    (h : files.LooksIn path place) (hparent : path.parent? = some parent) :
    ∃ outer, files.LooksIn parent outer ∧ .parent ∉ parent.components ∧
      files.start parent = files.start path ∧
      (place = outer ∨ ∃ name, place = outer ++ [name]) := by
  obtain ⟨outer, houter, hstart⟩ := h.parent hparent
  obtain ⟨component, hroot, hcomponents⟩ := components_of_parent? hparent
  have hplace : place = enter outer component := by
    rw [h.place_eq, hcomponents, List.foldl_append, houter.place_eq]
    rfl
  rw [hcomponents, List.mem_append, not_or] at hup
  refine ⟨outer, houter, hup.1, hstart, ?_⟩
  cases component with
  | root => exact absurd rfl hroot
  | current => exact .inl hplace
  | parent => exact absurd (List.mem_singleton_self _) hup.2
  | name text => exact .inr ⟨text, hplace⟩

theorem start_prefix_of_looksIn {path : Path} (hup : .parent ∉ path.components)
    (h : files.LooksIn path place) : files.start path <+: place := by
  induction path using wellFounded_parent?.induction generalizing place with
  | _ path ih =>
      cases hparent : path.parent? with
      | none =>
          have hplace := h.place_of_parent?_eq_none hparent
          exact ⟨[], (List.append_nil _).trans hplace.symm⟩
      | some parent =>
          obtain ⟨outer, houter, hupParent, hstart, hplace⟩ := exists_step hup h hparent
          have hprefix := ih parent hparent hupParent houter
          rw [hstart] at hprefix
          rcases hplace with rfl | ⟨name, rfl⟩
          · exact hprefix
          · exact hprefix.trans (List.prefix_append _ _)

/-- What the search does from a path on: it finds the configuration that counts at a place, as long
as this is not above the place where the path begins. -/
structure Finds (files : Workspace) (path : Path) (place : Place) : Prop where
  some : ∀ found, find files path = some found → ∃ directory, Governs files place directory ∧
    files.start path <+: directory ∧ files.resolve found = .ok (directory ++ [fileName])
  none : find files path = none →
    ∀ directory, Governs files place directory → ¬files.start path <+: directory

/-- The search from a path without `..` goes up in the tree. -/
theorem finds_of_looksIn {path : Path} (hup : .parent ∉ path.components)
    (h : files.LooksIn path place) : Finds files path place := by
  induction path using wellFounded_parent?.induction generalizing place with
  | _ path ih =>
      obtain ⟨hhere, hstop, hon⟩ := find_of_looksIn h
      by_cases hconfig : HasConfig files place
      · obtain ⟨hfind, hresolve⟩ := hhere hconfig
        refine ⟨fun found hfound => ?_, fun hnone => ?_⟩
        · obtain rfl := Option.some.inj (hfind.symm.trans hfound)
          exact ⟨place, (governs_iff_of_hasConfig hconfig).mpr rfl, start_prefix_of_looksIn hup h,
            hresolve⟩
        · cases hfind.symm.trans hnone
      by_cases hrepository : IsRepository files place
      · refine ⟨fun found hfound => ?_, fun _ directory hgoverns => ?_⟩
        · cases (hstop hconfig hrepository).symm.trans hfound
        · exact absurd hgoverns (not_governs_of_isRepository hconfig hrepository)
      have hfind := hon hconfig hrepository
      cases hparent : path.parent? with
      | none =>
          rw [hparent, Option.bind_none] at hfind
          obtain rfl := h.place_of_parent?_eq_none hparent
          refine ⟨fun found hfound => ?_, fun _ directory hgoverns hbelow => ?_⟩
          · cases hfind.symm.trans hfound
          · exact hgoverns.ne hconfig (hgoverns.above.eq_of_length_le hbelow.length_le)
      | some parent =>
          rw [hparent, Option.bind_some] at hfind
          obtain ⟨outer, houter, hupParent, hstart, hplace⟩ := exists_step hup h hparent
          obtain ⟨hsome, hnone⟩ := ih parent hparent hupParent houter
          have hgoverns (directory : Place) :
              Governs files place directory ↔ Governs files outer directory := by
            rcases hplace with rfl | ⟨name, rfl⟩
            · exact Iff.rfl
            · rw [governs_append_iff hconfig, and_iff_right hrepository]
          rw [← hfind, hstart] at hsome hnone
          exact ⟨by simpa only [hgoverns] using hsome, by simpa only [hgoverns] using hnone⟩

/-- The search for the configuration of a directory. It goes from parent to parent of the path at
which it starts, and it ends for every path. If the path has no `..` it finds the configuration that
counts for the directory and no other, and it finds none only if there is none or if the path is
relative and the configuration is above the current directory. -/
theorem find_governing_config {start : Path} (hstart : files.resolve start = .ok place)
    (hdirectory : files.hasDirectory place = true) :
    (∀ path, find files path =
      if files.pathExists (path.join fileName) then some (path.join fileName)
      else if files.pathExists (path.join ".git") then none
      else path.parent?.bind (find files)) ∧
    (WellFounded fun parent path : Path => path.parent? = some parent) ∧
    (.parent ∉ start.components →
      (∀ found, find files start = some found →
        ∃ directory, Governs files place directory ∧
          files.resolve found = .ok (directory ++ [fileName])) ∧
      (find files start = none ↔ ∀ directory, Governs files place directory →
        start.isAbsolute = false ∧ ¬files.current <+: directory)) := by
  refine ⟨find_eq files, wellFounded_parent?, fun hup => ?_⟩
  obtain ⟨hsome, hnone⟩ := finds_of_looksIn hup ⟨hdirectory, .inl hstart⟩
  refine ⟨fun found hfound => ?_, fun hfind directory hgoverns => ?_, fun hall => ?_⟩
  · obtain ⟨directory, hgoverns, -, hresolve⟩ := hsome found hfound
    exact ⟨directory, hgoverns, hresolve⟩
  · have hbeyond := hnone hfind directory hgoverns
    rw [Workspace.start] at hbeyond
    cases habsolute : start.isAbsolute with
    | true =>
        rw [habsolute, if_pos rfl] at hbeyond
        exact absurd List.nil_prefix hbeyond
    | false =>
        rw [habsolute, if_neg Bool.false_ne_true] at hbeyond
        exact ⟨rfl, hbeyond⟩
  · cases hfind : find files start with
    | none => rfl
    | some found =>
        obtain ⟨directory, hgoverns, hbelow, -⟩ := hsome found hfind
        obtain ⟨hrelative, hbeyond⟩ := hall directory hgoverns
        rw [Workspace.start, hrelative, if_neg Bool.false_ne_true] at hbelow
        exact absurd hbelow hbeyond

/-- A project with its configuration above the current directory, next to a project with another
one. -/
def nestedTree : Workspace :=
  ⟨[(["app"], .directory), (["app", ".relangrc.json"], .file []), (["app", "src"], .directory),
    (["app", "src", "lib"], .directory), (["app", "src", "lib", ".relangrc.json"], .file []),
    (["app", "src", "ui"], .directory)], ["app", "src"]⟩

theorem governs_nestedTree : Governs nestedTree ["app", "src"] ["app"] := by
  have hup : ¬HasConfig nestedTree (["app"] ++ ["src"]) := by decide +kernel
  refine (governs_append_iff hup).mpr ⟨by decide +kernel, ?_⟩
  exact (governs_iff_of_hasConfig (by decide +kernel)).mpr rfl

/-- An absolute path leads to the configuration above. -/
theorem find_governing_config_nestedTree :
    nestedTree.resolve "/app/src" = .ok ["app", "src"] ∧
      ∃ directory, Governs nestedTree ["app", "src"] directory ∧
        nestedTree.resolve "/app/.relangrc.json" = .ok (directory ++ [fileName]) := by
  have hstart : nestedTree.resolve "/app/src" = .ok ["app", "src"] := by decide +kernel
  obtain ⟨-, -, hfinds⟩ := find_governing_config hstart (by decide +kernel)
  exact ⟨hstart, (hfinds (by decide +kernel)).1 "/app/.relangrc.json" (by decide +kernel)⟩

/-- From the current directory on, the configuration above it is not found. From a path that goes
down and up again, a configuration is found that is in no directory above. -/
theorem config_above_current_missed :
    (nestedTree.resolve "." = .ok ["app", "src"] ∧ Governs nestedTree ["app", "src"] ["app"] ∧
      find nestedTree "." = none) ∧
    (nestedTree.resolve "lib/../ui" = .ok ["app", "src", "ui"] ∧
      Governs nestedTree ["app", "src", "ui"] ["app"] ∧
      find nestedTree "lib/../ui" = some "lib/.relangrc.json") := by
  refine ⟨⟨by decide +kernel, governs_nestedTree, by decide +kernel⟩, by decide +kernel, ?_,
    by decide +kernel⟩
  have hui : ¬HasConfig nestedTree (["app", "src"] ++ ["ui"]) := by decide +kernel
  exact (governs_append_iff hui).mpr ⟨by decide +kernel, governs_nestedTree⟩

end ResourceLanguage.Config
