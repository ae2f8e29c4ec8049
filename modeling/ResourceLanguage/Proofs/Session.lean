import ResourceLanguage.Project

/-!
What reading the files of a project leaves as it was. Sources and resources are read at first use
and kept, and neither reading has an effect on the other.
-/

namespace ResourceLanguage.Session

@[simp] theorem files_resources (session : Session) :
    session.resources.2.files = session.files := by
  unfold resources
  split <;> rfl

@[simp] theorem filter_resources (session : Session) :
    session.resources.2.project.filter = session.project.filter := by
  unfold resources
  split <;> rfl

@[simp] theorem cancellation_resources (session : Session) :
    session.resources.2.project.cancellation = session.project.cancellation := by
  unfold resources
  split <;> rfl

theorem resources_fst_congr {first second : Session} (hfiles : first.files = second.files)
    (hresources : first.project.resources = second.project.resources)
    (hlist : first.project.resourceFiles = second.project.resourceFiles) :
    first.resources.1 = second.resources.1 := by
  unfold resources
  rw [hresources]
  split
  · rfl
  · simp only [hfiles, hlist]

section Sources

variable [CSharp.Grammar]

@[simp] theorem files_sources (session : Session) :
    session.sources.2.files = session.files := by
  unfold sources
  split <;> rfl

@[simp] theorem cancellation_sources (session : Session) :
    session.sources.2.project.cancellation = session.project.cancellation := by
  unfold sources
  split <;> rfl

@[simp] theorem sourceFiles_sources (session : Session) :
    session.sources.2.project.sourceFiles = session.project.sourceFiles := by
  unfold sources
  split <;> rfl

@[simp] theorem resourceFiles_sources (session : Session) :
    session.sources.2.project.resourceFiles = session.project.resourceFiles := by
  unfold sources
  split <;> rfl

/-- What is found in the source files hangs on the files, their list and the symbols alone. -/
theorem sources_fst_congr {first second : Session} (hfiles : first.files = second.files)
    (hsources : first.project.sources = second.project.sources)
    (hlist : first.project.sourceFiles = second.project.sourceFiles)
    (hconfig : first.project.config = second.project.config) :
    first.sources.1 = second.sources.1 := by
  unfold sources
  rw [hsources]
  split
  · rfl
  · simp only [hfiles, hlist, hconfig]

@[simp] theorem sources_fst_setCancellation (session : Session) (cancellation : Cancellation) :
    (session.setCancellation cancellation).sources.1 = session.sources.1 :=
  sources_fst_congr rfl rfl rfl rfl

/-- Reading the resource files first makes no difference to the source files. -/
@[simp] theorem sources_fst_resources (session : Session) (cancellation : Cancellation) :
    (session.resources.2.setCancellation cancellation).sources.1 = session.sources.1 := by
  apply sources_fst_congr
  all_goals
    unfold resources
    split <;> rfl

theorem sources_fst_of_some {session : Session} {sources : Sources}
    (h : session.project.sources = some sources) : session.sources.1 = sources := by
  simp only [Session.sources, h]

/-- Source files that have been read are not read again. -/
@[simp] theorem sources_fst_sources (session : Session) :
    session.sources.2.sources.1 = session.sources.1 := by
  apply sources_fst_of_some
  cases hsources : session.project.sources with
  | some sources => simp only [Session.sources, hsources]
  | none =>
      simp only [Session.sources, hsources]
      rfl

end Sources

/-- The files of a source root, listed under a configuration. -/
def listed (files : Workspace) (config : Config) (sourceRoot : Option Path) (verbose : Bool) :
    Session :=
  let root := sourceRoot.getD config.sourceRoot
  let scan := Scan.ofDirectory files root config.includes config.ignores
  { files
    project :=
      { config, root, sourceFiles := scan.sourceFiles, resourceFiles := scan.resourceFiles
        verbose } }

/-- Work begins where there is a readable configuration, if any, and a source root. -/
theorem start_eq_ok_iff {files : Workspace} {sourceRoot : Option Path} {verbose : Bool}
    {session : Session} :
    (start files sourceRoot verbose).1 = .ok session ↔
      ∃ loaded, Config.load files (sourceRoot.getD ".") = .ok loaded ∧
        files.isDirectory (sourceRoot.getD loaded.config.sourceRoot) = true ∧
        session = listed files loaded.config sourceRoot verbose := by
  rw [start]
  cases Config.load files (sourceRoot.getD ".") with
  | error failure => simp
  | ok loaded =>
      cases hroot : files.isDirectory (sourceRoot.getD loaded.config.sourceRoot) with
      | false => simp [Project.ofConfig, hroot]
      | true =>
          simp only [Project.ofConfig, hroot, if_true, Except.ok.injEq, exists_eq_left', true_and]
          exact eq_comm

/-- Work begins on the given files, with nothing read and without a request to cancel. -/
theorem of_start {files : Workspace} {sourceRoot : Option Path} {verbose : Bool}
    {session : Session} (h : (start files sourceRoot verbose).1 = .ok session) :
    session.files = files ∧ session.project.cancellation = .never ∧
      session.project.sources = none ∧ session.project.resources = none := by
  obtain ⟨loaded, -, -, rfl⟩ := start_eq_ok_iff.mp h
  exact ⟨rfl, rfl, rfl, rfl⟩

end ResourceLanguage.Session
