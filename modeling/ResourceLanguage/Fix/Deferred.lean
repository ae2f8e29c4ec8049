import ResourceLanguage.Failure
import ResourceLanguage.Resource.Plan

/-!
Fixes that are computed when they are previewed or committed, and not before.
-/

namespace ResourceLanguage

/-- What a fix works on: the files, and a view of the request to cancel. -/
structure World where
  files : Workspace
  cancellation : Cancellation
  deriving DecidableEq, Repr

inductive FixMode where
  /-- Show what would change. -/
  | preview
  /-- Change it. -/
  | commit
  deriving DecidableEq, Repr

inductive FixOutcome where
  | noChange
  | preview (plan : Plan)
  | applied (plan : Plan)
  deriving DecidableEq, Repr

namespace FixOutcome

def plan? : FixOutcome → Option Plan
  | .noChange => none
  | .preview plan => some plan
  | .applied plan => some plan

def isApplied : FixOutcome → Bool
  | .applied _ => true
  | _ => false

end FixOutcome

/-- What a fix cannot be made without. -/
inductive FixArgument where
  | title
  | compute
  deriving DecidableEq, Repr

def FixArgument.name : FixArgument → String
  | .title => "title"
  | .compute => "compute"

inductive FixError where
  | missing (argument : FixArgument)
  /-- A request to cancel had arrived before the fix began. -/
  | cancelled (cause : Cancelled)
  /-- The fix failed. A request to cancel that it noticed itself is such a failure. -/
  | failed (failure : Failure)
  deriving DecidableEq, Repr

namespace FixError

def message : FixError → String
  | .missing argument => "invalid argument: '" ++ argument.name ++ "' must be provided"
  | .cancelled cause => cause.message
  | .failed failure => "fix failed: " ++ failure.message

def isCancelled : FixError → Bool
  | .cancelled _ => true
  | _ => false

end FixError

abbrev FixComputation := FixMode → World → Except Failure FixOutcome × World

structure DeferredFix where
  title : String
  /-- Fixes with the same key can stand for each other. -/
  equivalenceKey : Option String
  compute : FixComputation

namespace DeferredFix

open ResourceLanguage.Text

/-- A fix from its parts. A title that is empty is missing. -/
def build (title : Option String) (equivalenceKey : Option String)
    (compute : Option FixComputation) : Except FixError DeferredFix := do
  let some title := title.filter (!·.isEmpty) | .error (.missing .title)
  let some compute := compute | .error (.missing .compute)
  return { title, equivalenceKey, compute }

/-- What a fix can be applied to at once. -/
def scopes (_ : DeferredFix) : List String := ["Document"]

def describe (fix : DeferredFix) : String :=
  let key :=
    match fix.equivalenceKey with
    | some key => "Some(" ++ quoted key ++ ")"
    | none => "None"
  "DeferredFix \x7b title: " ++ quoted fix.title ++ ", equivalence_key: " ++ key ++ ", .. \x7d"

/-- Runs a fix, unless a request to cancel has arrived. -/
def run (fix : DeferredFix) (mode : FixMode) (world : World) : Except FixError FixOutcome × World :=
  match world.cancellation.check with
  | .error cause => (.error (.cancelled cause), world)
  | .ok cancellation =>
      let (result, world) := fix.compute mode { world with cancellation }
      (result.mapError .failed, world)

end DeferredFix

/-- Carries out a plan. Without a plan, or when it changes nothing, there is nothing to do. -/
def applyPlan (plan : Option Plan) (mode : FixMode) (files : Workspace) :
    Except Failure (FixOutcome × Workspace) :=
  match plan with
  | none => .ok (.noChange, files)
  | some plan =>
      if plan.isNoop then .ok (.noChange, files)
      else
        match mode with
        | .preview => .ok (.preview plan, files)
        | .commit =>
            match files.writeText plan.path plan.newText with
            | .ok files => .ok (.applied plan, files)
            | .error error => .error (.unwritableResource plan.path error)

end ResourceLanguage
