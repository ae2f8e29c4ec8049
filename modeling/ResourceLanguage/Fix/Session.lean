import ResourceLanguage.Fix.Batch
import ResourceLanguage.Project

/-!
Fixing the issues of a project.
-/

namespace ResourceLanguage.Session

open ResourceLanguage.CSharp

variable [Grammar]

/-- The fixes for some issues. Without an issue no source file is looked at. -/
def batch (session : Session) (issues : List LanguageOverride) : Batch × Session :=
  if issues.isEmpty then ({ fixes := [], skipped := [] }, session)
  else
    let (sources, session) := session.sources
    let batch := Batch.ofIssues sources.files issues
    (batch, session.noteVerbose (batch.skipped.map .skippedIssue))

def commit (session : Session) (issues : List LanguageOverride) :
    Except FixError FixStats × Session :=
  let (batch, session) := session.batch issues
  let result := batch.commit session.world
  let session := (session.setWorld result.world).note (result.log.failures.map .failedFix)
  match result.stopped with
  | some error => (.error error, session)
  | none => (.ok (batch.commitStats result.log), session)

def preview (session : Session) (issues : List LanguageOverride) :
    Except FixError Batch.Preview × Session :=
  let (batch, session) := session.batch issues
  let (result, world) := batch.preview session.world
  (result, session.setWorld world)

def previewIssue (session : Session) (issue : LanguageOverride) :
    Except Failure (Except FixError FixOutcome) × Session :=
  let (sources, session) := session.sources
  match RestoreFix.ofIssue sources.files issue with
  | .error failure => (.error failure, session)
  | .ok fix =>
      let (result, world) := fix.run .preview session.world
      (.ok result, session.setWorld world)

end ResourceLanguage.Session
