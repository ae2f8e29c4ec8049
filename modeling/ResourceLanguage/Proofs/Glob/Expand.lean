import Mathlib.Data.List.Basic
import ResourceLanguage.Glob.Expand

/-!
Steps of expanding a pattern. A piece without wildcards is looked up; one with wildcards goes on at
entries below the directory, or at the directory itself or its parent.
-/

namespace ResourceLanguage.Glob

/-- An entry below a directory at which expanding goes on, and the patterns with which it does. -/
inductive Continues (pattern : Pattern) (rest : List Pattern) :
    Place → Entry → List Pattern → Prop where
  /-- The pattern matches a name in the directory. -/
  | child {name : String} {entry : Entry} (single : pattern.isRecursive = false)
      (matched : pattern.isMatch name = true) : Continues pattern rest [name] entry rest
  /-- A `**` at the end reaches all directories. -/
  | directory {names : Place} {entry : Entry} (recursive : pattern.isRecursive = true)
      (last : rest.dropWhile Pattern.isRecursive = [])
      (isDirectory : entry.isDirectory = true) : Continues pattern rest names entry []
  /-- A `**` reaches all entries with names that match the pattern after it. -/
  | below {names : Place} {entry : Entry} {next : Pattern} {more : List Pattern}
      (recursive : pattern.isRecursive = true)
      (following : rest.dropWhile Pattern.isRecursive = next :: more)
      (matched : names.getLast?.any next.isMatch = true) : Continues pattern rest names entry more

namespace Continues

variable {pattern : Pattern} {rest more : List Pattern} {names : Place} {entry : Entry}

theorem suffix (h : Continues pattern rest names entry more) : more <:+ rest := by
  cases h with
  | child => exact List.suffix_refl rest
  | directory => exact List.nil_suffix
  | below _ following _ =>
      exact (List.suffix_cons _ more).trans (following ▸ List.dropWhile_suffix _)

theorem of_isDirectory_eq (h : Continues pattern rest names entry more) {other : Entry}
    (hkind : other.isDirectory = entry.isDirectory) : Continues pattern rest names other more := by
  cases h with
  | child single matched => exact .child single matched
  | directory recursive last isDirectory =>
      exact .directory recursive last (hkind.trans isDirectory)
  | below recursive following matched => exact .below recursive following matched

end Continues

variable {files : Workspace}

theorem mem_matchingPaths_nil {path reached : Path} :
    reached ∈ matchingPaths files [] path ↔ reached = path := by
  rw [matchingPaths, List.mem_singleton]

variable {pattern : Pattern} {rest : List Pattern} {path reached : Path}

/-- Whether a piece without wildcards leads on from a path. -/
def leads (files : Workspace) (path : Path) (name : String) : Bool :=
  if name = "." ∨ name = ".." then files.isDirectory path
  else files.pathExists (childPath path name)

theorem mem_matchingPaths_of_literal {name : String} (h : pattern.literal? = some name) :
    reached ∈ matchingPaths files (pattern :: rest) path ↔
      leads files path name = true ∧ reached ∈ matchingPaths files rest (childPath path name) := by
  rw [matchingPaths, leads]
  simp only [h]
  by_cases hleads : (if name = "." ∨ name = ".." then files.isDirectory path
      else files.pathExists (childPath path name)) = true
  · rw [if_pos hleads]
    exact ⟨fun hreached => ⟨hleads, hreached⟩, And.right⟩
  · rw [if_neg hleads]
    exact ⟨fun hreached => absurd hreached List.not_mem_nil, fun h => absurd h.1 hleads⟩

theorem mem_matchingPaths_of_recursive (h : pattern.literal? = none)
    (hrecursive : pattern.isRecursive = true) :
    reached ∈ matchingPaths files (pattern :: rest) path ↔
      files.isDirectory path = true ∧
        ∃ found names entry more, (found, names, entry) ∈ descendants files path ∧
          Continues pattern rest names entry more ∧ reached ∈ matchingPaths files more found := by
  rw [matchingPaths]
  simp only [h]
  by_cases hdirectory : files.isDirectory path = true
  · rw [if_neg (by simp [hdirectory]), if_pos hrecursive, and_iff_right hdirectory]
    split
    · -- The `**` is at the end.
      rename_i hlast
      constructor
      · intro hreached
        obtain ⟨⟨found, names, entry⟩, hmem, hfound⟩ := List.mem_filterMap.mp hreached
        dsimp only at hfound
        split at hfound
        · cases hfound
          exact ⟨reached, names, entry, [], hmem, .directory hrecursive hlast ‹_›,
            mem_matchingPaths_nil.mpr rfl⟩
        · cases hfound
      · rintro ⟨found, names, entry, more, hmem, hcontinues, hreached⟩
        cases hcontinues with
        | child single _ =>
            rw [hrecursive] at single
            cases single
        | directory _ _ isDirectory =>
            obtain rfl := mem_matchingPaths_nil.mp hreached
            exact List.mem_filterMap.mpr ⟨_, hmem, if_pos isDirectory⟩
        | below _ following _ =>
            rw [hlast] at following
            cases following
    · -- A pattern comes after it, and no other shape of continuing fits.
      rename_i next more hnext
      constructor
      · intro hreached
        obtain ⟨⟨found, names, entry⟩, hmem, hfound⟩ := List.mem_flatMap.mp hreached
        dsimp only at hfound
        split at hfound
        · exact ⟨found, names, entry, more, hmem, .below hrecursive hnext ‹_›, hfound⟩
        · cases hfound
      · rintro ⟨found, names, entry, more', hmem, hcontinues, hreached⟩
        refine List.mem_flatMap.mpr ⟨_, hmem, ?_⟩
        cases hcontinues with
        | child single _ =>
            rw [hrecursive] at single
            cases single
        | directory _ last _ =>
            rw [hnext] at last
            cases last
        | below _ following matched =>
            rw [hnext] at following
            obtain ⟨rfl, rfl⟩ := List.cons.inj following
            rwa [if_pos matched]
  · rw [if_pos (by simp [hdirectory])]
    exact ⟨fun hreached => absurd hreached List.not_mem_nil, fun h => absurd h.1 hdirectory⟩

theorem mem_matchingPaths_of_single (h : pattern.literal? = none)
    (hsingle : pattern.isRecursive = false) :
    reached ∈ matchingPaths files (pattern :: rest) path ↔
      files.isDirectory path = true ∧
        ((∃ found ∈ specialPaths path pattern, reached ∈ matchingPaths files rest found) ∨
          ∃ found names entry more, (found, names, entry) ∈ descendants files path ∧
            Continues pattern rest names entry more ∧
            reached ∈ matchingPaths files more found) := by
  rw [matchingPaths]
  simp only [h]
  by_cases hdirectory : files.isDirectory path = true
  · rw [if_neg (by simp [hdirectory]), if_neg (by simp [hsingle]), and_iff_right hdirectory]
    constructor
    · intro hreached
      obtain ⟨child, hchild, hreached⟩ := List.mem_flatMap.mp hreached
      rcases List.mem_append.mp hchild with hchild | hspecial
      · right
        obtain ⟨⟨found, names, entry⟩, hmem, hsome⟩ := List.mem_filterMap.mp hchild
        dsimp only at hsome
        split at hsome
        · split at hsome
          · cases hsome
            exact ⟨child, _, entry, rest, hmem, .child hsingle ‹_›, hreached⟩
          · cases hsome
        · cases hsome
      · exact .inl ⟨child, hspecial, hreached⟩
    · rintro (⟨found, hspecial, hreached⟩ | ⟨found, names, entry, more, hmem, hcontinues, hreached⟩)
      · exact List.mem_flatMap.mpr ⟨found, List.mem_append_right _ hspecial, hreached⟩
      · cases hcontinues with
        | child _ matched =>
            refine List.mem_flatMap.mpr ⟨found, List.mem_append_left _ ?_, hreached⟩
            exact List.mem_filterMap.mpr ⟨_, hmem, if_pos matched⟩
        | directory recursive | below recursive =>
            rw [hsingle] at recursive
            cases recursive
  · rw [if_pos (by simp [hdirectory])]
    exact ⟨fun hreached => absurd hreached List.not_mem_nil, fun h => absurd h.1 hdirectory⟩

/-- One step with wildcards. -/
theorem mem_matchingPaths_of_wildcards (h : pattern.literal? = none) :
    reached ∈ matchingPaths files (pattern :: rest) path ↔
      files.isDirectory path = true ∧
        ((pattern.isRecursive = false ∧
          ∃ found ∈ specialPaths path pattern, reached ∈ matchingPaths files rest found) ∨
          ∃ found names entry more, (found, names, entry) ∈ descendants files path ∧
            Continues pattern rest names entry more ∧
            reached ∈ matchingPaths files more found) := by
  cases hrecursive : pattern.isRecursive with
  | true =>
      rw [mem_matchingPaths_of_recursive h hrecursive]
      simp
  | false =>
      rw [mem_matchingPaths_of_single h hrecursive]
      simp

end ResourceLanguage.Glob
