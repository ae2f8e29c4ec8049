import ResourceLanguage.Proofs.Cancellation
import ResourceLanguage.Proofs.Fix.Commit

/-!
A batch of fixes while a request to cancel may arrive. Each fix looks for the request before it
begins and once more by itself; then it plans, and then it writes. The request may arrive between
any two of these steps. The files are always as a front part of the batch leaves them, nothing is
written once a fix has been refused, and at most one fix writes after the request.
-/

namespace ResourceLanguage

/-- The log after a fix has run. -/
def Batch.CommitLog.note (log : Batch.CommitLog) : Except FixError FixOutcome → Batch.CommitLog
  | .ok (.applied plan) => { log with applied := log.applied ++ [plan] }
  | .ok _ => log
  | .error error => { log with failures := log.failures ++ [error] }

namespace BatchRun

open Batch (CommitLog CommitResult commitAll)

/-! ### Steps -/

inductive Stage where
  /-- Between two fixes, or after the last one. -/
  | ready (waiting : List RestoreFix)
  /-- No request had arrived before the fix began. -/
  | begun (fix : RestoreFix) (waiting : List RestoreFix)
  /-- Nor had one arrived when the fix itself looked for it. -/
  | confirmed (fix : RestoreFix) (waiting : List RestoreFix)
  | planned (fix : RestoreFix) (plan : Option Plan) (waiting : List RestoreFix)
  /-- Ended by the request. -/
  | stopped (error : FixError)

/-- How far the batch is, and whether the request has arrived. -/
structure State where
  requested : Bool
  stage : Stage
  log : CommitLog
  files : Workspace

/-- What can be seen of a step. -/
inductive Event where
  /-- The request arrives. -/
  | request
  /-- A fix looks for the request, and finds none. -/
  | pass
  /-- A fix finds the request and is not carried out. -/
  | refuse
  | work
  /-- A fix changes its file. -/
  | write
  deriving DecidableEq

/-- What can be seen of a plan that is carried out. -/
def eventOf (outcome : FixOutcome) : Event := if outcome.isApplied then .write else .work

theorem ne_eventOf {event : Event} (hwrite : event ≠ .write) (hwork : event ≠ .work)
    (outcome : FixOutcome) : event ≠ eventOf outcome := by
  rw [eventOf]
  split
  · exact hwrite
  · exact hwork

/-- One step of a batch, or the arrival of the request. A request that has arrived stays. -/
inductive Step : State → Event → State → Prop where
  | request (stage : Stage) (log : CommitLog) (files : Workspace) :
      Step ⟨false, stage, log, files⟩ .request ⟨true, stage, log, files⟩
  | begin (fix : RestoreFix) (waiting : List RestoreFix) (log : CommitLog) (files : Workspace) :
      Step ⟨false, .ready (fix :: waiting), log, files⟩ .pass
        ⟨false, .begun fix waiting, log, files⟩
  | stop (fix : RestoreFix) (waiting : List RestoreFix) (log : CommitLog) (files : Workspace) :
      Step ⟨true, .ready (fix :: waiting), log, files⟩ .refuse
        ⟨true, .stopped (.cancelled ⟨⟩), log, files⟩
  | confirm (fix : RestoreFix) (waiting : List RestoreFix) (log : CommitLog)
      (files : Workspace) :
      Step ⟨false, .begun fix waiting, log, files⟩ .pass
        ⟨false, .confirmed fix waiting, log, files⟩
  /-- A fix that finds the request by itself has failed, and the batch goes on. -/
  | refuse (fix : RestoreFix) (waiting : List RestoreFix) (log : CommitLog) (files : Workspace) :
      Step ⟨true, .begun fix waiting, log, files⟩ .refuse
        ⟨true, .ready waiting, log.note (.error (.failed (.cancelled ⟨⟩))), files⟩
  | plan (requested : Bool) {fix : RestoreFix} (waiting : List RestoreFix) (log : CommitLog)
      {files : Workspace} {plan : Option Plan}
      (h : planRestore files fix.declaringFile fix.typeName = .ok plan) :
      Step ⟨requested, .confirmed fix waiting, log, files⟩ .work
        ⟨requested, .planned fix plan waiting, log, files⟩
  | failPlan (requested : Bool) {fix : RestoreFix} (waiting : List RestoreFix) (log : CommitLog)
      {files : Workspace} {failure : Failure}
      (h : planRestore files fix.declaringFile fix.typeName = .error failure) :
      Step ⟨requested, .confirmed fix waiting, log, files⟩ .work
        ⟨requested, .ready waiting, log.note (.error (.failed failure)), files⟩
  | apply (requested : Bool) (fix : RestoreFix) {plan : Option Plan}
      (waiting : List RestoreFix) (log : CommitLog) {files files' : Workspace}
      {outcome : FixOutcome} (h : applyPlan plan .commit files = .ok (outcome, files')) :
      Step ⟨requested, .planned fix plan waiting, log, files⟩ (eventOf outcome)
        ⟨requested, .ready waiting, log.note (.ok outcome), files'⟩
  | failApply (requested : Bool) (fix : RestoreFix) {plan : Option Plan}
      (waiting : List RestoreFix) (log : CommitLog) {files : Workspace} {failure : Failure}
      (h : applyPlan plan .commit files = .error failure) :
      Step ⟨requested, .planned fix plan waiting, log, files⟩ .work
        ⟨requested, .ready waiting, log.note (.error (.failed failure)), files⟩

/-- Some steps, and what can be seen of them. -/
inductive Run : State → List Event → State → Prop where
  | refl (state : State) : Run state [] state
  | step {state next last : State} {event : Event} {events : List Event}
      (h : Step state event next) (hrest : Run next events last) :
      Run state (event :: events) last

namespace Run

theorem append {state middle last : State} {events events' : List Event}
    (h : Run state events middle) (h' : Run middle events' last) :
    Run state (events ++ events') last := by
  induction h with
  | refl state => exact h'
  | step hstep _ ih => exact .step hstep (ih h')

theorem exists_of_append {state last : State} {event : Event} {early late : List Event}
    (h : Run state (early ++ event :: late) last) :
    ∃ before after, Run state early before ∧ Step before event after ∧ Run after late last := by
  induction early generalizing state with
  | nil =>
      cases h with
      | step hstep hrest => exact ⟨_, _, .refl state, hstep, hrest⟩
  | cons first early ih =>
      cases h with
      | step hstep hrest =>
          obtain ⟨before, after, hbefore, hafter, hlate⟩ := ih hrest
          exact ⟨before, after, .step hstep hbefore, hafter, hlate⟩

end Run

/-! ### Writes after the request -/

/-- The number of fixes that have nothing to look for before they write. -/
def Stage.pending : Stage → Nat
  | ready _ => 0
  | begun _ _ => 0
  | confirmed _ _ => 1
  | planned _ _ _ => 1
  | stopped _ => 0

theorem Stage.pending_le_one (stage : Stage) : stage.pending ≤ 1 := by
  cases stage <;> simp [pending]

/-- Once the request has arrived, only a fix that has passed both checks can write. -/
theorem Step.pending_le {state next : State} {event : Event} (h : Step state event next)
    (hrequested : state.requested = true) :
    next.requested = true ∧ [event].count .write + next.stage.pending ≤ state.stage.pending := by
  cases h with
  | request stage log files => cases hrequested
  | begin fix waiting log files => cases hrequested
  | stop fix waiting log files => exact ⟨rfl, by simp [Stage.pending]⟩
  | confirm fix waiting log files => cases hrequested
  | refuse fix waiting log files => exact ⟨rfl, by simp [Stage.pending]⟩
  | plan requested waiting log h => exact ⟨hrequested, by simp [Stage.pending]⟩
  | failPlan requested waiting log h => exact ⟨hrequested, by simp [Stage.pending]⟩
  | @apply _ _ _ _ _ _ _ outcome h =>
      exact ⟨hrequested, List.count_le_length (a := Event.write) (l := [eventOf outcome])⟩
  | failApply requested fix waiting log h => exact ⟨hrequested, by simp [Stage.pending]⟩

theorem Run.count_write_le {state last : State} {events : List Event}
    (h : Run state events last) (hrequested : state.requested = true) :
    events.count .write ≤ state.stage.pending := by
  induction h with
  | refl state => exact Nat.zero_le _
  | @step state next last event events hstep _ ih =>
      obtain ⟨hnext, hle⟩ := hstep.pending_le hrequested
      have hrest := ih hnext
      have hcount : (event :: events).count .write =
          [event].count .write + events.count .write := by
        rw [← List.count_append, List.singleton_append]
      omega

theorem Step.of_refuse {state next : State} (h : Step state .refuse next) :
    next.requested = true ∧ next.stage.pending = 0 := by
  generalize hevent : Event.refuse = event at h
  cases h with
  | stop fix waiting log files => exact ⟨rfl, rfl⟩
  | refuse fix waiting log files => exact ⟨rfl, rfl⟩
  | @apply _ _ _ _ _ _ _ outcome h =>
      exact absurd hevent (ne_eventOf (by decide) (by decide) outcome)
  | _ => cases hevent

theorem Step.of_request {state next : State} (h : Step state .request next) :
    next.requested = true := by
  generalize hevent : Event.request = event at h
  cases h with
  | request stage log files => rfl
  | @apply _ _ _ _ _ _ _ outcome h =>
      exact absurd hevent (ne_eventOf (by decide) (by decide) outcome)
  | _ => cases hevent

/-- Nothing is written once a fix has been refused. -/
theorem Run.write_notMem_of_refuse {state last : State} {early late : List Event}
    (h : Run state (early ++ .refuse :: late) last) : .write ∉ late := by
  obtain ⟨before, after, -, hstep, hlate⟩ := h.exists_of_append
  obtain ⟨hrequested, hpending⟩ := hstep.of_refuse
  have hcount := hlate.count_write_le hrequested
  rw [hpending] at hcount
  exact List.count_eq_zero.mp (Nat.le_zero.mp hcount)

/-- At most one fix writes after the request. -/
theorem Run.count_write_of_request {state last : State} {early late : List Event}
    (h : Run state (early ++ .request :: late) last) : late.count .write ≤ 1 := by
  obtain ⟨before, after, -, hstep, hlate⟩ := h.exists_of_append
  exact (hlate.count_write_le hstep.of_request).trans after.stage.pending_le_one

end BatchRun

/-! ### A front part of the batch -/

namespace Batch

section Cons

variable {fix : RestoreFix} {world world' : World} (fixes : List RestoreFix) (log : CommitLog)

theorem commitAll_cons_of_ok {outcome : FixOutcome}
    (h : fix.run .commit world = (.ok outcome, world')) :
    commitAll (fix :: fixes) log world = commitAll fixes (log.note (.ok outcome)) world' := by
  rw [commitAll, h]
  cases outcome with
  | noChange => rfl
  | preview plan => rfl
  | applied plan => rfl

theorem commitAll_cons_of_failed {failure : Failure}
    (h : fix.run .commit world = (.error (.failed failure), world')) :
    commitAll (fix :: fixes) log world =
      commitAll fixes (log.note (.error (.failed failure))) world' := by
  rw [commitAll, h]
  rfl

theorem commitAll_cons_of_cancelled {cause : Cancelled}
    (h : fix.run .commit world = (.error (.cancelled cause), world')) :
    commitAll (fix :: fixes) log world = ⟨log, some (.cancelled cause), world'⟩ := by
  rw [commitAll, h]
  rfl

end Cons

/-- The files after some fixes that nothing disturbs. -/
def filesAfter (files : Workspace) (fixes : List RestoreFix) : Workspace :=
  (commitAll fixes {} ⟨files, .never⟩).world.files

theorem commitAll_append_never (front fixes : List RestoreFix) (log : CommitLog)
    (files : Workspace) :
    commitAll (front ++ fixes) log ⟨files, .never⟩ =
      commitAll fixes (commitAll front log ⟨files, .never⟩).log
        (commitAll front log ⟨files, .never⟩).world := by
  induction front generalizing log files with
  | nil => rfl
  | cons fix front ih =>
      rw [List.cons_append]
      rcases fix.commit_cases files with ⟨-, failure, hrun⟩ | ⟨-, -, hrun⟩ |
        ⟨-, plan, place, -, -, hrun⟩
      · rw [commitAll_cons_of_failed _ _ hrun, commitAll_cons_of_failed _ _ hrun, ih]
      · rw [commitAll_cons_of_ok _ _ hrun, commitAll_cons_of_ok _ _ hrun, ih]
      · rw [commitAll_cons_of_ok _ _ hrun, commitAll_cons_of_ok _ _ hrun, ih]

/-- One more fix: it plans with the files that the others left, and carries its plan out. -/
theorem filesAfter_concat (files : Workspace) (front : List RestoreFix) (fix : RestoreFix) :
    filesAfter files (front ++ [fix]) =
      (fix.run .commit ⟨filesAfter files front, .never⟩).2.files := by
  have hworld : (commitAll front {} ⟨files, .never⟩).world = ⟨filesAfter files front, .never⟩ := by
    obtain ⟨plans, failures, hcommit, -⟩ := commitAll_never front {} files
    rw [filesAfter, hcommit]
  rw [filesAfter, commitAll_append_never, hworld]
  rcases fix.commit_cases (filesAfter files front) with ⟨-, failure, hrun⟩ | ⟨-, -, hrun⟩ |
    ⟨-, plan, place, -, -, hrun⟩
  · rw [commitAll_cons_of_failed _ _ hrun, hrun]
    rfl
  · rw [commitAll_cons_of_ok _ _ hrun, hrun]
    rfl
  · rw [commitAll_cons_of_ok _ _ hrun, hrun]
    rfl

end Batch

namespace BatchRun

open Batch (CommitLog CommitResult commitAll filesAfter)

/-- The files are as a front part of the batch leaves them. Without a request, the fixes that are
still to come are the others. -/
def Follows (fixes : List RestoreFix) (files : Workspace) (state : State) : Prop :=
  ∃ front, front <+: fixes ∧ state.files = filesAfter files front ∧
    match state.stage with
    | .ready waiting => state.requested = true ∨ fixes = front ++ waiting
    | .begun fix waiting => fixes = front ++ fix :: waiting
    | .confirmed fix waiting => fixes = front ++ fix :: waiting
    | .planned fix plan waiting =>
        fixes = front ++ fix :: waiting ∧
          planRestore state.files fix.declaringFile fix.typeName = .ok plan
    | .stopped _ => True

theorem Follows.next {fixes front waiting : List RestoreFix} {fix : RestoreFix}
    {files after : Workspace} {log : CommitLog} (requested : Bool)
    (hfixes : fixes = front ++ fix :: waiting)
    (hafter : (fix.run .commit ⟨filesAfter files front, .never⟩).2.files = after) :
    Follows fixes files ⟨requested, .ready waiting, log, after⟩ := by
  have hsplit : fixes = (front ++ [fix]) ++ waiting := by rw [hfixes, List.append_assoc]; rfl
  refine ⟨front ++ [fix], ⟨waiting, hsplit.symm⟩, ?_, .inr hsplit⟩
  rw [Batch.filesAfter_concat, hafter]

theorem Step.follows {fixes : List RestoreFix} {files : Workspace} {state next : State}
    {event : Event} (hstep : Step state event next) (h : Follows fixes files state) :
    Follows fixes files next := by
  obtain ⟨front, hfront, hfiles, hstage⟩ := h
  cases hstep with
  | request stage log files =>
      refine ⟨front, hfront, hfiles, ?_⟩
      cases stage with
      | ready waiting => exact .inl rfl
      | begun fix waiting => exact hstage
      | confirmed fix waiting => exact hstage
      | planned fix plan waiting => exact hstage
      | stopped error => exact hstage
  | begin fix waiting log files =>
      refine ⟨front, hfront, hfiles, ?_⟩
      rcases hstage with hrequested | hfixes
      · cases hrequested
      · exact hfixes
  | stop fix waiting log files => exact ⟨front, hfront, hfiles, trivial⟩
  | confirm fix waiting log files => exact ⟨front, hfront, hfiles, hstage⟩
  | refuse fix waiting log files => exact ⟨front, hfront, hfiles, .inl rfl⟩
  | plan requested waiting log hplan => exact ⟨front, hfront, hfiles, hstage, hplan⟩
  | failPlan requested waiting log hplan =>
      obtain rfl := hfiles
      refine .next requested hstage ?_
      rw [RestoreFix.run_never, hplan]
  | apply requested fix waiting log happly =>
      obtain rfl := hfiles
      refine .next requested hstage.1 ?_
      rw [RestoreFix.run_never, hstage.2]
      simp only [happly]
  | failApply requested fix waiting log happly =>
      obtain rfl := hfiles
      refine .next requested hstage.1 ?_
      rw [RestoreFix.run_never, hstage.2]
      simp only [happly]

theorem Run.follows {fixes : List RestoreFix} {files : Workspace} {state last : State}
    {events : List Event} (hrun : Run state events last) (h : Follows fixes files state) :
    Follows fixes files last := by
  induction hrun with
  | refl state => exact h
  | step hstep _ ih => exact ih (hstep.follows h)

/-! ### What the program does -/

/-- How a batch has ended, if it has: it is over, or the request has ended it. -/
def Stage.ending? : Stage → Option (Option FixError)
  | ready [] => some none
  | stopped error => some (some error)
  | _ => none

/-- A batch that has ended with a result. -/
structure State.Ends (state : State) (result : CommitResult) : Prop where
  stage : state.stage.ending? = some result.stopped
  log : state.log = result.log
  files : state.files = result.world.files

section Finish

variable (waiting : List RestoreFix) (log : CommitLog) (files : Workspace)
  (cancellation : Cancellation)

/-- The rest of the program after a plan has been carried out. -/
def finishApplied : Except Failure (FixOutcome × Workspace) → CommitResult
  | .ok (outcome, files) => commitAll waiting (log.note (.ok outcome)) ⟨files, cancellation⟩
  | .error failure => commitAll waiting (log.note (.error (.failed failure))) ⟨files, cancellation⟩

/-- The rest of the program after planning. -/
def finishPlanned : Except Failure (Option Plan) → CommitResult
  | .ok plan => finishApplied waiting log files cancellation (applyPlan plan .commit files)
  | .error failure => commitAll waiting (log.note (.error (.failed failure))) ⟨files, cancellation⟩

/-- The rest of the program after a fix has looked for the request. -/
def finishChecked (fix : RestoreFix) : Except Cancelled Cancellation → CommitResult
  | .ok later =>
      finishPlanned waiting log files later (planRestore files fix.declaringFile fix.typeName)
  | .error cause =>
      commitAll waiting (log.note (.error (.failed (.cancelled cause)))) ⟨files, cancellation⟩

theorem commitAll_cons_of_check {later : Cancellation} (fix : RestoreFix)
    (h : cancellation.check = .ok later) :
    commitAll (fix :: waiting) log ⟨files, cancellation⟩ =
      finishChecked waiting log files later fix later.check := by
  have hrun : fix.run .commit ⟨files, cancellation⟩ =
      ((fix.compute .commit ⟨files, later⟩).1.mapError .failed,
        (fix.compute .commit ⟨files, later⟩).2) := by
    simp only [RestoreFix.run, RestoreFix.toDeferred, DeferredFix.run, h]
  cases hcheck : later.check with
  | error cause =>
      simp only [RestoreFix.compute, hcheck] at hrun
      exact Batch.commitAll_cons_of_failed waiting log hrun
  | ok last =>
      rw [finishChecked]
      cases hplan : planRestore files fix.declaringFile fix.typeName with
      | error failure =>
          simp only [RestoreFix.compute, hcheck, hplan, bind, Except.bind] at hrun
          exact Batch.commitAll_cons_of_failed waiting log hrun
      | ok plan =>
          rw [finishPlanned]
          cases happly : applyPlan plan .commit files with
          | error failure =>
              simp only [RestoreFix.compute, hcheck, hplan, happly, bind, Except.bind] at hrun
              exact Batch.commitAll_cons_of_failed waiting log hrun
          | ok result =>
              simp only [RestoreFix.compute, hcheck, hplan, happly, bind, Except.bind] at hrun
              exact Batch.commitAll_cons_of_ok waiting log hrun

theorem commitAll_cons_of_arrived (fix : RestoreFix) (h : cancellation.arrived = true) :
    commitAll (fix :: waiting) log ⟨files, cancellation⟩ =
      ⟨log, some (.cancelled ⟨⟩), ⟨files, cancellation⟩⟩ := by
  apply Batch.commitAll_cons_of_cancelled
  simp only [RestoreFix.run, DeferredFix.run, Cancellation.check_of_arrived h]

end Finish

/-- The rest of the program from a state on, under a view of the future. -/
def State.finish (cancellation : Cancellation) (state : State) : CommitResult :=
  match state.stage with
  | .ready waiting => commitAll waiting state.log ⟨state.files, cancellation⟩
  | .begun fix waiting =>
      finishChecked waiting state.log state.files cancellation fix cancellation.check
  | .confirmed fix waiting =>
      finishPlanned waiting state.log state.files cancellation
        (planRestore state.files fix.declaringFile fix.typeName)
  | .planned _ plan waiting =>
      finishApplied waiting state.log state.files cancellation (applyPlan plan .commit state.files)
  | .stopped error => ⟨state.log, some error, ⟨state.files, cancellation⟩⟩

theorem State.ends_finish {state : State} {stopped : Option FixError}
    (h : state.stage.ending? = some stopped) (cancellation : Cancellation) :
    state.Ends (state.finish cancellation) := by
  obtain ⟨requested, stage, log, files⟩ := state
  cases stage with
  | ready waiting =>
      cases waiting with
      | nil => exact ⟨rfl, rfl, rfl⟩
      | cons fix waiting => cases h
  | stopped error => exact ⟨rfl, rfl, rfl⟩
  | begun fix waiting => cases h
  | confirmed fix waiting => cases h
  | planned fix plan waiting => cases h

/-- What a step does to the view of the future: a check that passes has been counted, and every
other step leaves the view as it is. -/
def Event.Sees (cancellation later : Cancellation) : Event → Prop
  | pass => cancellation.check = .ok later
  | refuse => cancellation = later ∧ later.arrived = true
  | request => cancellation = later
  | work => cancellation = later
  | write => cancellation = later

theorem sees_eventOf {cancellation later : Cancellation} {outcome : FixOutcome} :
    (eventOf outcome).Sees cancellation later ↔ cancellation = later := by
  rw [eventOf]
  split <;> rfl

/-- A step is a step of the program: the rest of the program stays the same. -/
theorem Step.finish_eq {state next : State} {event : Event} (h : Step state event next)
    {cancellation later : Cancellation} (hsees : event.Sees cancellation later) :
    state.finish cancellation = next.finish later := by
  cases h with
  | request stage log files =>
      obtain rfl : cancellation = later := hsees
      rfl
  | begin fix waiting log files => exact commitAll_cons_of_check _ _ _ _ fix hsees
  | stop fix waiting log files =>
      obtain ⟨rfl, harrived⟩ := hsees
      exact commitAll_cons_of_arrived _ _ _ _ fix harrived
  | confirm fix waiting log files =>
      have hcheck : cancellation.check = .ok later := hsees
      simp only [State.finish, finishChecked, hcheck]
  | refuse fix waiting log files =>
      obtain ⟨rfl, harrived⟩ := hsees
      simp only [State.finish, finishChecked, Cancellation.check_of_arrived harrived]
  | plan requested waiting log h =>
      obtain rfl : cancellation = later := hsees
      simp only [State.finish, finishPlanned, h]
  | failPlan requested waiting log h =>
      obtain rfl : cancellation = later := hsees
      simp only [State.finish, finishPlanned, h]
  | apply requested fix waiting log h =>
      obtain rfl := sees_eventOf.mp hsees
      simp only [State.finish, finishApplied, h]
  | failApply requested fix waiting log h =>
      obtain rfl : cancellation = later := hsees
      simp only [State.finish, finishApplied, h]

theorem Step.exists_sees {state next : State} {event : Event} (h : Step state event next)
    {later : Cancellation} (hlater : next.requested = true → later.arrived = true) :
    ∃ cancellation : Cancellation, (state.requested = true → cancellation.arrived = true) ∧
      event.Sees cancellation later := by
  -- Without a request before the check, one more check may have passed.
  have hpass : ∃ cancellation : Cancellation, (false = true → cancellation.arrived = true) ∧
      Event.pass.Sees cancellation later := by
    obtain ⟨cancellation, hcheck⟩ := later.exists_check_eq_ok
    exact ⟨cancellation, fun h => absurd h Bool.false_ne_true, hcheck⟩
  cases h with
  | request stage log files => exact ⟨later, fun _ => hlater rfl, rfl⟩
  | begin fix waiting log files => exact hpass
  | stop fix waiting log files => exact ⟨later, hlater, rfl, hlater rfl⟩
  | confirm fix waiting log files => exact hpass
  | refuse fix waiting log files => exact ⟨later, hlater, rfl, hlater rfl⟩
  | plan requested waiting log h => exact ⟨later, hlater, rfl⟩
  | failPlan requested waiting log h => exact ⟨later, hlater, rfl⟩
  | apply requested fix waiting log h => exact ⟨later, hlater, sees_eventOf.mpr rfl⟩
  | failApply requested fix waiting log h => exact ⟨later, hlater, rfl⟩

/-- A batch that ends does what the program does when the request arrives at some check. -/
theorem Run.exists_finish {state last : State} {events : List Event} {stopped : Option FixError}
    (h : Run state events last) (hlast : last.stage.ending? = some stopped) :
    ∃ cancellation : Cancellation, (state.requested = true → cancellation.arrived = true) ∧
      last.Ends (state.finish cancellation) := by
  induction h with
  | refl state => exact ⟨.requested, fun _ => rfl, State.ends_finish hlast _⟩
  | step hstep _ ih =>
      obtain ⟨later, hlater, hends⟩ := ih hlast
      obtain ⟨cancellation, harrived, hsees⟩ := hstep.exists_sees hlater
      exact ⟨cancellation, harrived, hstep.finish_eq hsees ▸ hends⟩

/-- A bound for the steps of the batch that are still to come. -/
def Stage.work : Stage → Nat
  | ready waiting => 4 * waiting.length
  | begun _ waiting => 4 * waiting.length + 3
  | confirmed _ waiting => 4 * waiting.length + 2
  | planned _ _ waiting => 4 * waiting.length + 1
  | stopped _ => 0

/-- A batch goes on until it has ended. -/
theorem State.ending_or_step {state : State} {cancellation : Cancellation}
    (h : state.requested = cancellation.arrived) :
    (∃ stopped, state.stage.ending? = some stopped) ∨
      ∃ event next later, Step state event next ∧ event.Sees cancellation later ∧
        (next.requested = true → later.arrived = true) ∧ next.stage.work < state.stage.work := by
  obtain ⟨requested, stage, log, files⟩ := state
  cases stage with
  | stopped error => exact .inl ⟨_, rfl⟩
  | ready waiting =>
      cases waiting with
      | nil => exact .inl ⟨_, rfl⟩
      | cons fix waiting =>
          rcases cancellation.check_cases with ⟨harrived, -⟩ | ⟨later, harrived, hcheck⟩
          · obtain rfl : requested = true := h.trans harrived
            exact .inr ⟨_, _, _, .stop fix waiting log files, ⟨rfl, harrived⟩, fun _ => harrived,
              by simp [Stage.work]⟩
          · obtain rfl : requested = false := h.trans harrived
            refine .inr ⟨_, _, later, .begin fix waiting log files, hcheck,
              fun h => absurd h Bool.false_ne_true, ?_⟩
            simp only [Stage.work, List.length_cons]
            omega
  | begun fix waiting =>
      rcases cancellation.check_cases with ⟨harrived, -⟩ | ⟨later, harrived, hcheck⟩
      · obtain rfl : requested = true := h.trans harrived
        exact .inr ⟨_, _, _, .refuse fix waiting log files, ⟨rfl, harrived⟩, fun _ => harrived,
          by simp [Stage.work]⟩
      · obtain rfl : requested = false := h.trans harrived
        exact .inr ⟨_, _, later, .confirm fix waiting log files, hcheck,
          fun h => absurd h Bool.false_ne_true, by simp [Stage.work]⟩
  | confirmed fix waiting =>
      cases hplan : planRestore files fix.declaringFile fix.typeName with
      | error failure =>
          exact .inr ⟨_, _, _, .failPlan requested waiting log hplan, rfl, h.symm.trans,
            by simp [Stage.work]⟩
      | ok plan =>
          exact .inr ⟨_, _, _, .plan requested waiting log hplan, rfl, h.symm.trans,
            by simp [Stage.work]⟩
  | planned fix plan waiting =>
      cases happly : applyPlan plan .commit files with
      | error failure =>
          exact .inr ⟨_, _, _, .failApply requested fix waiting log happly, rfl, h.symm.trans,
            by simp [Stage.work]⟩
      | ok result =>
          exact .inr ⟨_, _, _, .apply requested fix waiting log happly, sees_eventOf.mpr rfl,
            h.symm.trans, by simp [Stage.work]⟩

/-- The request can arrive whenever it is to be seen next. -/
theorem State.exists_run_arrived (state : State) {cancellation : Cancellation}
    (h : state.requested = true → cancellation.arrived = true) :
    ∃ events, Run state events { state with requested := cancellation.arrived } := by
  obtain ⟨requested, stage, log, files⟩ := state
  cases harrived : cancellation.arrived with
  | false =>
      cases requested with
      | false => exact ⟨[], .refl _⟩
      | true => exact absurd (harrived.symm.trans (h rfl)) Bool.false_ne_true
  | true =>
      cases requested with
      | false => exact ⟨[.request], .step (.request stage log files) (.refl _)⟩
      | true => exact ⟨[], .refl _⟩

/-- What the program does is one of the ways to take the steps, whenever the request arrives. -/
theorem State.exists_run_finish {state : State} {cancellation : Cancellation}
    (h : state.requested = true → cancellation.arrived = true) :
    ∃ events last, Run state events last ∧ last.Ends (state.finish cancellation) := by
  induction hwork : state.stage.work using Nat.strongRecOn generalizing state cancellation with
  | ind work ih =>
      obtain ⟨early, hearly⟩ := state.exists_run_arrived h
      have hseen : State.requested { state with requested := cancellation.arrived } =
          cancellation.arrived := rfl
      rcases State.ending_or_step hseen with ⟨stopped, hending⟩ |
        ⟨event, next, later, hstep, hsees, hlater, hlt⟩
      · exact ⟨early, _, hearly, State.ends_finish hending cancellation⟩
      · obtain ⟨late, last, hlate, hends⟩ := ih next.stage.work (hwork ▸ hlt) hlater rfl
        have hfinish : state.finish cancellation = next.finish later := hstep.finish_eq hsees
        exact ⟨early ++ event :: late, last, hearly.append (.step hstep hlate), hfinish ▸ hends⟩

end BatchRun

namespace Session

open BatchRun

section Grammar

variable [CSharp.Grammar]

theorem batch_fst_setCancellation (session : Session) (cancellation : Cancellation)
    (issues : List LanguageOverride) :
    ((session.setCancellation cancellation).batch issues).1 = (session.batch issues).1 := by
  rw [batch_fst, batch_fst, sources_fst_setCancellation]

theorem world_batch_setCancellation (session : Session) (cancellation : Cancellation)
    (issues : List LanguageOverride) :
    ((session.setCancellation cancellation).batch issues).2.world =
      ⟨session.files, cancellation⟩ := by
  rw [world, files_batch, cancellation_batch]
  rfl

theorem files_commit_setCancellation (session : Session) (cancellation : Cancellation)
    (issues : List LanguageOverride) :
    ((session.setCancellation cancellation).commit issues).2.files =
      ((session.batch issues).1.commit ⟨session.files, cancellation⟩).world.files := by
  rw [commit]
  dsimp only
  rw [world_batch_setCancellation, batch_fst_setCancellation]
  split <;> rfl

/-- A batch of fixes before its first step. -/
def batchRun (session : Session) (issues : List LanguageOverride) : State :=
  ⟨false, .ready (session.batch issues).1.fixes, {}, session.files⟩

theorem follows_batchRun (session : Session) (issues : List LanguageOverride) :
    Follows (session.batch issues).1.fixes session.files (session.batchRun issues) :=
  ⟨[], List.nil_prefix, rfl, .inr rfl⟩

theorem exists_run_commit (session : Session) (issues : List LanguageOverride)
    (cancellation : Cancellation) :
    ∃ events state, Run (session.batchRun issues) events state ∧
      state.Ends ((session.batch issues).1.commit ⟨session.files, cancellation⟩) := by
  apply State.exists_run_finish
  intro hrequested
  cases hrequested

end Grammar

/-- Cancelling a batch of fixes leaves a clean front part of it. Whenever the request arrives, the
files are those that some of the first fixes leave when nothing disturbs them; once a fix has been
refused nothing is written, and after the request at most one fix writes. The batches that end are
those of the program, which looks for the request at each check. -/
theorem commit_leaves_front [CSharp.Grammar] (session : Session)
    (issues : List LanguageOverride) :
    (∀ events state, Run (session.batchRun issues) events state →
      (∃ front, front <+: (session.batch issues).1.fixes ∧
        state.files = Batch.filesAfter session.files front) ∧
      (∀ early late, events = early ++ .refuse :: late → .write ∉ late) ∧
      ∀ early late, events = early ++ .request :: late → late.count .write ≤ 1) ∧
    (∀ events state stopped, Run (session.batchRun issues) events state →
      state.stage.ending? = some stopped → ∃ cancellation,
        state.Ends ((session.batch issues).1.commit ⟨session.files, cancellation⟩)) ∧
    ∀ cancellation,
      (∃ events state, Run (session.batchRun issues) events state ∧
        state.Ends ((session.batch issues).1.commit ⟨session.files, cancellation⟩)) ∧
      ∃ front, front <+: (session.batch issues).1.fixes ∧
        ((session.setCancellation cancellation).commit issues).2.files =
          Batch.filesAfter session.files front := by
  have hfront : ∀ events state, Run (session.batchRun issues) events state →
      ∃ front, front <+: (session.batch issues).1.fixes ∧
        state.files = Batch.filesAfter session.files front := by
    intro events state hrun
    obtain ⟨front, hprefix, hfiles, -⟩ := hrun.follows (session.follows_batchRun issues)
    exact ⟨front, hprefix, hfiles⟩
  refine ⟨fun events state hrun => ⟨hfront events state hrun, ?_, ?_⟩, ?_, fun cancellation => ?_⟩
  · rintro early late rfl
    exact hrun.write_notMem_of_refuse
  · rintro early late rfl
    exact hrun.count_write_of_request
  · intro events state stopped hrun hending
    obtain ⟨cancellation, -, hends⟩ := hrun.exists_finish hending
    exact ⟨cancellation, hends⟩
  · obtain ⟨events, state, hrun, hends⟩ := session.exists_run_commit issues cancellation
    obtain ⟨front, hprefix, hfiles⟩ := hfront events state hrun
    refine ⟨⟨events, state, hrun, hends⟩, front, hprefix, ?_⟩
    rw [files_commit_setCancellation, ← hends.files, hfiles]

/-- The request arrives when the first fix has planned: the fix writes, and the second one is
refused. -/
theorem commit_leaves_front_sharedForm :
    let issues := ["a.cs", "b.cs"].map formIssue
    ∃ state front,
      Run (sharedForm.batchRun issues) [.pass, .pass, .work, .request, .write, .refuse] state ∧
      front <+: (sharedForm.batch issues).1.fixes ∧
      state.files = Batch.filesAfter sharedForm.files front ∧
      [Event.write, .refuse].count .write ≤ 1 ∧
      state.files.readText "Form.resx" = .ok "$this.Language\n</metadata>\n</root>\n" := by
  intro issues
  let plan := Plan.ofText "./Form.resx" markedTwice
  let files : Workspace := ⟨[(["Form.resx"], .file plan.newText.toUTF8.data.toList)], []⟩
  have hfixes : (sharedForm.batch issues).1.fixes = [⟨"a.cs", "Form"⟩, ⟨"b.cs", "Form"⟩] := by
    decide +kernel
  have hplan : planRestore sharedForm.files "a.cs" "Form" = .ok (some plan) := by decide +kernel
  have happly : applyPlan (some plan) .commit sharedForm.files = .ok (.applied plan, files) := by
    decide +kernel
  have hstart : sharedForm.batchRun issues =
      ⟨false, .ready [⟨"a.cs", "Form"⟩, ⟨"b.cs", "Form"⟩], {}, sharedForm.files⟩ :=
    congrArg (fun fixes => (⟨false, .ready fixes, {}, sharedForm.files⟩ : State)) hfixes
  have hrun : Run (sharedForm.batchRun issues) [.pass, .pass, .work, .request, .write, .refuse]
      ⟨true, .stopped (.cancelled ⟨⟩), ⟨[plan], []⟩, files⟩ := by
    rw [hstart]
    refine .step (.begin _ _ _ _) (.step (.confirm _ _ _ _) ?_)
    refine .step (.plan false _ _ hplan) (.step (.request _ _ _) ?_)
    exact .step (.apply true ⟨"a.cs", "Form"⟩ _ _ happly) (.step (.stop _ _ _ _) (.refl _))
  obtain ⟨⟨front, hprefix, hfiles⟩, -, hwrites⟩ :=
    (sharedForm.commit_leaves_front issues).1 _ _ hrun
  exact ⟨_, front, hrun, hprefix, hfiles, hwrites [.pass, .pass, .work] _ rfl, by decide +kernel⟩

end Session

end ResourceLanguage
