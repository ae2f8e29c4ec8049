import ResourceLanguage.Fix.Restore

/-!
Fixing many issues at once.
-/

namespace ResourceLanguage

open ResourceLanguage.CSharp

structure FixStats where
  /-- Issues with a fix. -/
  processed : Nat := 0
  /-- Issues without. -/
  skipped : Nat := 0
  changesApplied : Nat := 0
  filesModified : Nat := 0
  failed : Nat := 0
  deriving DecidableEq, Repr

def FixStats.add (a b : FixStats) : FixStats where
  processed := a.processed + b.processed
  skipped := a.skipped + b.skipped
  changesApplied := a.changesApplied + b.changesApplied
  filesModified := a.filesModified + b.filesModified
  failed := a.failed + b.failed

/-- The fixes for some issues in order, and the reasons for which some issues have none. -/
structure Batch where
  fixes : List RestoreFix
  skipped : List Failure
  deriving DecidableEq, Repr

namespace Batch

def ofIssues (sources : List SourceFile) (issues : List LanguageOverride) : Batch :=
  let registered := issues.map (RestoreFix.ofIssue sources)
  { fixes := registered.filterMap fun
      | .ok fix => some fix
      | .error _ => none
    skipped := registered.filterMap fun
      | .ok _ => none
      | .error failure => some failure }

/-- The counts before any fix has run. -/
def stats (batch : Batch) : FixStats :=
  { processed := batch.fixes.length, skipped := batch.skipped.length }

def samePath (a b : Path) : Bool := a.components == b.components

/-- What commits have done so far: the plans that were applied, and the fixes that failed. -/
structure CommitLog where
  applied : List Plan := []
  failures : List FixError := []
  deriving DecidableEq, Repr

/-- The files that were changed, each once. -/
def CommitLog.modified (log : CommitLog) : List Path :=
  (log.applied.map (·.path)).foldl
    (fun paths path => if paths.any (samePath path) then paths else paths ++ [path]) []

/-- The end of a batch of commits. `stopped` tells of a request to cancel that ended it. -/
structure CommitResult where
  log : CommitLog
  stopped : Option FixError
  world : World
  deriving DecidableEq, Repr

/-- Commits fixes one after the other. A fix that fails is noted, and the next one goes on; a
request to cancel that arrives between two fixes ends it all. -/
def commitAll : List RestoreFix → CommitLog → World → CommitResult
  | [], log, world => { log, stopped := none, world }
  | fix :: fixes, log, world =>
      match fix.run .commit world with
      | (.ok (.applied plan), world) =>
          commitAll fixes { log with applied := log.applied ++ [plan] } world
      | (.ok _, world) => commitAll fixes log world
      | (.error error, world) =>
          if error.isCancelled then { log, stopped := some error, world }
          else commitAll fixes { log with failures := log.failures ++ [error] } world

def commitStats (batch : Batch) (log : CommitLog) : FixStats :=
  { batch.stats with
    changesApplied := log.applied.length
    filesModified := log.modified.length
    failed := log.failures.length }

def commit (batch : Batch) (world : World) : CommitResult := commitAll batch.fixes {} world

/-- Computes the changes of fixes one after the other, without any effect on files. -/
def previewAll : List RestoreFix → World → Except FixError (List Plan) × World
  | [], world => (.ok [], world)
  | fix :: fixes, world =>
      match fix.run .preview world with
      | (.error error, world) => (.error error, world)
      | (.ok outcome, world) =>
          let (rest, world) := previewAll fixes world
          (rest.map fun plans =>
            match outcome with
            | .preview plan => plan :: plans
            | _ => plans, world)

/-- Of the plans for one file the first, in the order of the files. -/
def distinctPlans (plans : List Plan) : List Plan :=
  (plans.foldl
    (fun kept plan =>
      if kept.any fun other => samePath other.path plan.path then kept else kept ++ [plan])
    []).mergeSort fun a b => a.path.le b.path

/-- The planned changes of a batch, one for each file. -/
structure Preview where
  plans : List Plan
  stats : FixStats
  deriving DecidableEq, Repr

def preview (batch : Batch) (world : World) : Except FixError Preview × World :=
  let (result, world) := previewAll batch.fixes world
  (result.map fun plans =>
    let plans := distinctPlans plans
    { plans, stats := { batch.stats with filesModified := plans.length } }, world)

end Batch

end ResourceLanguage
