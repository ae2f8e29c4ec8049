import Mathlib.Tactic.Common
import ResourceLanguage.Workspace

/-!
Rewriting files in place. It changes contents and nothing else: paths lead where they led, and
directories list the names they listed.
-/

namespace ResourceLanguage.Workspace

/-! ### Entries -/

/-- The entries after an existing one was set. -/
def setEntry (place : Place) (entry : Entry) (old : Place × Entry) : Place × Entry :=
  if old.1 = place then (old.1, entry) else old

theorem setEntry_fst (place : Place) (entry : Entry) (old : Place × Entry) :
    (setEntry place entry old).1 = old.1 := by
  unfold setEntry
  split <;> rfl

theorem put_of_mem {files : Workspace} {place : Place}
    (h : files.entries.any (·.1 == place) = true) (entry : Entry) :
    files.put place entry = { files with entries := files.entries.map (setEntry place entry) } := by
  rw [put, if_pos h]
  rfl

theorem mem_entries {files : Workspace} {place : Place} (hplace : place ≠ []) {entry : Entry}
    (h : files.entry? place = some entry) : (place, entry) ∈ files.entries := by
  unfold entry? at h
  rw [if_neg (by simpa using hplace), Option.map_eq_some_iff] at h
  obtain ⟨found, hfound, rfl⟩ := h
  have hkey := List.find?_some hfound
  rw [← beq_iff_eq.mp hkey]
  exact List.mem_of_find?_eq_some hfound

theorem any_entries {files : Workspace} {place : Place} (hplace : place ≠ []) {entry : Entry}
    (h : files.entry? place = some entry) : files.entries.any (·.1 == place) = true :=
  List.any_eq_true.mpr ⟨_, mem_entries hplace h, beq_self_eq_true place⟩

theorem entry?_nil (files : Workspace) : files.entry? [] = some .directory := rfl

theorem ne_nil_of_entry?_file {files : Workspace} {place : Place} {content : List UInt8}
    (h : files.entry? place = some (.file content)) : place ≠ [] := by
  rintro rfl
  rw [entry?_nil] at h
  cases h

/-- Setting an existing entry changes the entry at its place, and no other. -/
theorem entry?_put {files : Workspace} {place : Place} (hplace : place ≠ [])
    (h : files.entries.any (·.1 == place) = true) (entry : Entry) (other : Place) :
    entry? (files.put place entry) other =
      if other = place then some entry else files.entry? other := by
  rw [put_of_mem h]
  by_cases hempty : other = []
  · subst hempty
    rw [if_neg (Ne.symm hplace)]
    rfl
  · -- Entries keep their places, so a search stops at the same entry as before.
    have hkeys : ((fun found : Place × Entry => found.1 == other) ∘ setEntry place entry) =
        fun found => found.1 == other := by
      funext found
      simp [setEntry_fst]
    unfold entry?
    simp only [List.isEmpty_iff, hempty, if_false, List.find?_map, hkeys]
    cases hfind : files.entries.find? (·.1 == other) with
    | none =>
        rw [if_neg]
        · rfl
        · rintro rfl
          obtain ⟨found, hmem, hfound⟩ := List.any_eq_true.mp h
          exact absurd hfound (List.find?_eq_none.mp hfind found hmem)
    | some found =>
        have hkey := List.find?_some hfind
        have hfound : found.1 = other := beq_iff_eq.mp hkey
        by_cases heq : other = place
        · simp [heq, setEntry, hfound]
        · simp [heq, setEntry, hfound]

def listsFile (files : Workspace) (place : Place) (name : String) : Bool :=
  files.entries.any fun found => decide (found.1 = place ++ [name]) && found.2.isFile

theorem isSome_entry?_of_listsFile {files : Workspace} {place : Place} {name : String}
    (h : files.listsFile place name = true) : (files.entry? (place ++ [name])).isSome = true := by
  rw [listsFile, List.any_eq_true] at h
  obtain ⟨found, hfound, hname⟩ := h
  rw [Bool.and_eq_true, decide_eq_true_eq] at hname
  unfold entry?
  rw [if_neg (by simp), Option.isSome_map, List.find?_isSome]
  exact ⟨found, hfound, beq_iff_eq.mpr hname.1⟩

theorem listsFile_of_entry? {files : Workspace} {place : Place} {name : String}
    {content : List UInt8} (h : files.entry? (place ++ [name]) = some (.file content)) :
    files.listsFile place name = true :=
  List.any_eq_true.mpr ⟨_, mem_entries (by simp) h, by simp [Entry.isFile, Entry.isDirectory]⟩

/-! ### Where paths lead -/

def enter (place : Place) : Path.Component → Place
  | .root => []
  | .current => place
  | .parent => place.dropLast
  | .name text => place ++ [text]

theorem foldl_enter_names (place names : Place) :
    (names.map Path.Component.name).foldl enter place = place ++ names := by
  induction names generalizing place with
  | nil => exact (List.append_nil place).symm
  | cons name names ih =>
      rw [List.map_cons, List.foldl_cons, ih, enter, List.append_assoc, List.singleton_append]

/-- A path that leads somewhere leads where the components of its pieces lead. -/
theorem eq_foldl_enter_of_follow {files : Workspace} {pieces : List (List Char)}
    {place stop : Place} (h : files.follow place pieces = .ok stop) :
    stop = (pieces.filterMap (Path.Component.ofPiece? false)).foldl enter place := by
  induction pieces generalizing place with
  | nil =>
      rw [follow, Except.ok.injEq] at h
      exact h.symm
  | cons piece pieces ih =>
      rw [follow] at h
      split at h
      · split at h
        · rename_i hskip
          rw [ih h]
          rcases hskip with rfl | rfl <;> rfl
        · split at h
          · rename_i hup
            rw [ih h, hup]
            rfl
          · rename_i hskip hup
            rw [not_or] at hskip
            have hname : Path.Component.ofPiece? false piece =
                some (.name (String.ofList piece)) := by
              unfold Path.Component.ofPiece?
              split <;> simp_all
            dsimp only at h
            split at h
            · rw [ih h, List.filterMap_cons_some hname]
              rfl
            · cases h
      · cases h

/-- Only a `.` spells something else in front than behind other pieces. -/
theorem ofPiece?_of_ne_dot {isFirst : Bool} {piece : List Char} (h : piece ≠ ['.']) :
    Path.Component.ofPiece? isFirst piece = Path.Component.ofPiece? false piece := by
  unfold Path.Component.ofPiece?
  split <;> simp_all

/-- A `.` in front makes no difference to where components lead. -/
theorem foldl_enter_locate (start : Nat) (pieces : List (List Char)) (place : Place) :
    ((Path.locate start pieces).map (·.1)).foldl enter place =
      (pieces.filterMap (Path.Component.ofPiece? false)).foldl enter place := by
  induction pieces generalizing start place with
  | nil => rfl
  | cons piece pieces ih =>
      rw [Path.locate]
      by_cases hdot : piece = ['.']
      · subst hdot
        by_cases hstart : start = 0
        · simp [Path.Component.ofPiece?, hstart, enter, ih]
        · simp [Path.Component.ofPiece?, hstart, ih]
      · rw [ofPiece?_of_ne_dot hdot]
        cases hcomponent : Path.Component.ofPiece? false piece with
        | none => simp [hcomponent, ih]
        | some component => simp [hcomponent, ih]

theorem eq_foldl_enter_of_resolve {files : Workspace} {path : Path} {place : Place}
    (h : files.resolve path = .ok place) :
    place = path.components.foldl enter files.current := by
  rw [resolve] at h
  split at h
  · cases h
  · rw [eq_foldl_enter_of_follow h, start, Path.isAbsolute, Path.components, Path.located]
    cases habsolute : path.toList.head? == some '/' with
    | true =>
        obtain ⟨cs, hcs⟩ := List.head?_eq_some_iff.mp (beq_iff_eq.mp habsolute)
        rw [hcs]
        exact (foldl_enter_locate 1 (Path.pieces cs) []).symm
    | false =>
        rw [if_neg Bool.false_ne_true]
        split
        · rename_i cs hcs
          simp [hcs] at habsolute
        · rw [foldl_enter_locate]

/-- Paths with the same components lead to the same place, if they lead anywhere. -/
theorem eq_of_components_eq {files : Workspace} {path path' : Path} {place place' : Place}
    (h : path.components = path'.components) (hpath : files.resolve path = .ok place)
    (hpath' : files.resolve path' = .ok place') : place = place' := by
  rw [eq_foldl_enter_of_resolve hpath, eq_foldl_enter_of_resolve hpath', h]

/-! ### Workspaces that differ in contents only -/

/-- Directories are the same, and files are in the same places. -/
structure SameTree (first second : Workspace) : Prop where
  current : first.current = second.current
  kinds : ∀ place,
    (first.entry? place).map Entry.isDirectory = (second.entry? place).map Entry.isDirectory
  listed : ∀ place name, first.listsFile place name = second.listsFile place name

namespace SameTree

theorem refl (files : Workspace) : SameTree files files :=
  ⟨rfl, fun _ => rfl, fun _ _ => rfl⟩

theorem trans {first second third : Workspace} (h : SameTree first second)
    (h' : SameTree second third) : SameTree first third :=
  ⟨h.current.trans h'.current, fun place => (h.kinds place).trans (h'.kinds place),
    fun place name => (h.listed place name).trans (h'.listed place name)⟩

theorem hasDirectory_eq {first second : Workspace} (h : SameTree first second) (place : Place) :
    first.hasDirectory place = second.hasDirectory place := by
  have hkind := h.kinds place
  unfold hasDirectory
  cases hfirst : first.entry? place <;> cases hsecond : second.entry? place <;>
    simp_all

theorem isSome_entry?_eq {first second : Workspace} (h : SameTree first second) (place : Place) :
    (first.entry? place).isSome = (second.entry? place).isSome := by
  simpa using congrArg Option.isSome (h.kinds place)

theorem follow_eq {first second : Workspace} (h : SameTree first second) (place : Place)
    (pieces : List (List Char)) : first.follow place pieces = second.follow place pieces := by
  induction pieces generalizing place with
  | nil => rfl
  | cons piece pieces ih =>
      simp only [follow, h.hasDirectory_eq, h.isSome_entry?_eq, ih]

/-- Paths lead to the same places. -/
theorem resolve_eq {first second : Workspace} (h : SameTree first second) (path : Path) :
    first.resolve path = second.resolve path := by
  simp only [resolve, start, h.current, h.follow_eq]

theorem find?_eq {first second : Workspace} (h : SameTree first second) (path : Path) :
    (first.find? path).map Entry.isDirectory = (second.find? path).map Entry.isDirectory := by
  rw [find?, find?, h.resolve_eq]
  cases second.resolve path with
  | ok place => exact h.kinds place
  | error error => rfl

theorem pathExists_eq {first second : Workspace} (h : SameTree first second) (path : Path) :
    first.pathExists path = second.pathExists path := by
  simpa [pathExists] using congrArg Option.isSome (h.find?_eq path)

theorem isDirectory_eq {first second : Workspace} (h : SameTree first second) (path : Path) :
    first.isDirectory path = second.isDirectory path := by
  have hkind (files : Workspace) :
      files.isDirectory path = ((files.find? path).map Entry.isDirectory).any id := by
    rw [Option.any_map, isDirectory]
    rfl
  rw [hkind, hkind, h.find?_eq]

end SameTree

/-- Rewriting a file leaves the tree as it is. -/
theorem sameTree_put {files : Workspace} {place : Place} {old : List UInt8}
    (h : files.entry? place = some (.file old)) (content : List UInt8) :
    SameTree (files.put place (.file content)) files := by
  have hplace := ne_nil_of_entry?_file h
  have hany := any_entries hplace h
  refine ⟨by rw [put_of_mem hany], fun other => ?_, fun other name => ?_⟩
  · rw [entry?_put hplace hany]
    by_cases hother : other = place
    · subst hother
      simp [h, Entry.isDirectory]
    · simp [hother]
  · rw [put_of_mem hany, listsFile, listsFile, List.any_map]
    by_cases hother : other ++ [name] = place
    · -- The rewritten file is listed before and after: it was a file and is one.
      have hmem := mem_entries hplace h
      have hafter : files.entries.any ((fun found => decide (found.1 = other ++ [name]) &&
          found.2.isFile) ∘ setEntry place (.file content)) = true :=
        List.any_eq_true.mpr ⟨_, hmem, by simp [setEntry, hother, Entry.isFile,
          Entry.isDirectory]⟩
      have hbefore : files.entries.any (fun found => decide (found.1 = other ++ [name]) &&
          found.2.isFile) = true :=
        List.any_eq_true.mpr ⟨_, hmem, by simp [hother, Entry.isFile, Entry.isDirectory]⟩
      rw [hafter, hbefore]
    · congr 1
      funext found
      by_cases hfound : found.1 = place
      · simp [setEntry, hfound, Ne.symm hother]
      · simp [setEntry, hfound]

/-- The files among the names in a directory. -/
theorem any_below (files : Workspace) (place : Place) (name : String) :
    ((files.below place).filterMap fun (names, entry) =>
        match names with
        | [name] => some (name, entry)
        | _ => none).any (fun (other, entry) => other = name ∧ entry.isFile) =
      files.listsFile place name := by
  rw [below, List.any_filterMap, List.any_filterMap, listsFile]
  congr 1
  funext ⟨whole, entry⟩
  by_cases hbelow : place <+: whole
  · obtain ⟨rest, rfl⟩ := hbelow
    rcases rest with _ | ⟨first, _ | ⟨second, rest⟩⟩
    · simp
    · simp
    · simp
  · have hne : whole ≠ place ++ [name] := by
      rintro rfl
      exact hbelow (List.prefix_append _ _)
    simp [hbelow, hne]

theorem list_eq (files : Workspace) (path : Path) :
    files.list path =
      match files.resolve path with
      | .error error => .error error
      | .ok place =>
          if files.hasDirectory place then
            .ok ((files.below place).filterMap fun (names, entry) =>
              match names with
              | [name] => some (name, entry)
              | _ => none)
          else .error .notADirectory := by
  rw [list]
  cases files.resolve path with
  | error error => rfl
  | ok place => rfl

theorem isOk_list (files : Workspace) (path : Path) :
    (files.list path).isOk = (files.resolve path).toOption.any files.hasDirectory := by
  rw [list_eq]
  cases files.resolve path with
  | error error => rfl
  | ok place =>
      change _ = files.hasDirectory place
      cases hdirectory : files.hasDirectory place with
      | false => simp only [hdirectory]; rfl
      | true => simp only [hdirectory]; rfl

theorem read_eq (files : Workspace) (path : Path) :
    files.read path =
      match files.resolve path with
      | .error error => .error error
      | .ok place =>
          match files.entry? place with
          | some (.file content) => .ok content
          | some .directory => .error .isADirectory
          | none => .error .notFound := by
  rw [read]
  cases files.resolve path with
  | error error => rfl
  | ok place => rfl

def content? (files : Workspace) (place : Place) : Option (List UInt8) :=
  match files.entry? place with
  | some (.file content) => some content
  | _ => none

theorem content?_eq_some_iff {files : Workspace} {place : Place} {content : List UInt8} :
    files.content? place = some content ↔ files.entry? place = some (.file content) := by
  unfold content?
  split
  · rename_i found hfound
    simp [hfound]
  · rename_i hnone
    exact ⟨nofun, fun h => absurd h (hnone content)⟩

theorem content?_of_read {files : Workspace} {path : Path} {place : Place} {content : List UInt8}
    (hpath : files.resolve path = .ok place) (h : files.read path = .ok content) :
    files.content? place = some content := by
  rw [read_eq, hpath] at h
  rw [content?]
  rcases hentry : files.entry? place with _ | (_ | found)
  · simp [hentry] at h
  · simp [hentry] at h
  · simp only [hentry, Except.ok.injEq] at h
    rw [h]

theorem read_eq_ok_iff {files : Workspace} {path : Path} {place : Place} {content : List UInt8}
    (hpath : files.resolve path = .ok place) :
    files.read path = .ok content ↔ files.content? place = some content := by
  refine ⟨content?_of_read hpath, fun hcontent => ?_⟩
  simp only [read_eq, hpath, content?_eq_some_iff.mp hcontent]

theorem readText_eq_ok_iff {files : Workspace} {path : Path} {text : String} :
    files.readText path = .ok text ↔
      ∃ place content, files.resolve path = .ok place ∧ files.content? place = some content ∧
        String.fromUTF8? content.toByteArray = some text := by
  rw [readText, read_eq]
  cases hpath : files.resolve path with
  | error error => simp [bind, Except.bind]
  | ok place =>
      simp only [content?_eq_some_iff]
      rcases hentry : files.entry? place with _ | (_ | content)
      · simp [bind, Except.bind, hentry]
      · simp [bind, Except.bind, hentry]
      · cases htext : String.fromUTF8? content.toByteArray with
        | none => simp [bind, Except.bind, hentry, htext]
        | some found => simp [bind, Except.bind, hentry, htext]

/-- Being readable as text hangs on the content alone. -/
theorem isOk_readText_iff {files : Workspace} {path : Path} :
    (files.readText path).isOk = true ↔
      ∃ place content, files.resolve path = .ok place ∧ files.content? place = some content ∧
        (String.fromUTF8? content.toByteArray).isSome = true := by
  have hok : (files.readText path).isOk = true ↔ ∃ text, files.readText path = .ok text := by
    cases files.readText path with
    | error error => simp [Except.isOk, Except.toBool]
    | ok text => simp [Except.isOk, Except.toBool]
  simp only [hok, readText_eq_ok_iff, Option.isSome_iff_exists]
  constructor
  · rintro ⟨text, place, content, hpath, hcontent, htext⟩
    exact ⟨place, content, hpath, hcontent, text, htext⟩
  · rintro ⟨place, content, hpath, hcontent, text, htext⟩
    exact ⟨text, place, content, hpath, hcontent, htext⟩

/-- Writing to an existing file rewrites it. -/
theorem writeText_of_content? {files : Workspace} {path : Path} {place : Place}
    {old : List UInt8} (hpath : files.resolve path = .ok place)
    (hcontent : files.content? place = some old) (text : String) :
    files.writeText path text = .ok (files.put place (.file text.toUTF8.data.toList)) := by
  have hdirectory : files.hasDirectory place = false := by
    rw [hasDirectory, content?_eq_some_iff.mp hcontent]
    rfl
  rw [writeText, write, destination, hpath]
  simp only [hdirectory]
  rfl

/-- Workspaces with the same tree give the same answers to reading, but for the contents. -/
theorem read_of_sameTree {after files : Workspace} (htree : SameTree after files)
    {change : Place → List UInt8 → List UInt8}
    (h : ∀ place, after.content? place = (files.content? place).map (change place))
    {path : Path} {place : Place} (hpath : files.resolve path = .ok place) :
    after.read path = (files.read path).map (change place) := by
  rw [read_eq, read_eq, htree.resolve_eq, hpath]
  have hkind := htree.kinds place
  dsimp only
  cases hfiles : files.entry? place with
  | none =>
      rw [hfiles, Option.map_none, Option.map_eq_none_iff] at hkind
      rw [hkind]
      rfl
  | some entry =>
      cases entry with
      | directory =>
          rw [hfiles, Option.map_some, Option.map_eq_some_iff] at hkind
          obtain ⟨found, hfound, hdirectory⟩ := hkind
          cases found with
          | directory =>
              rw [hfound]
              rfl
          | file content => cases hdirectory
      | file content =>
          have hcontent := h place
          rw [content?_eq_some_iff.mpr hfiles, Option.map_some, content?_eq_some_iff] at hcontent
          rw [hcontent]
          rfl

end ResourceLanguage.Workspace
