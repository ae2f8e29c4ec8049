import Mathlib.Logic.Relation
import ResourceLanguage.Proofs.Analysis.Issues
import ResourceLanguage.Proofs.Cancellation

/-!
The search for issues while a request to cancel may arrive. Resource files are scanned one after the
other, types are handled in any order, and the request may arrive between any two steps. Every way
to take the steps ends, with all issues or with none.
-/

namespace ResourceLanguage

open ResourceLanguage.CSharp

namespace Inspection

/-! ### Steps -/

/-- The work on one type. -/
inductive Handler where
  | waiting (type : NamedType)
  /-- Begun, as no request had arrived. -/
  | begun (type : NamedType)
  | found (issues : List LanguageOverride)
  /-- Stopped by the request. -/
  | stopped

inductive Stage where
  | scanning (scans : List MarkerScan) (rest : List Resource)
  | handling (analysis : Analysis) (handlers : List Handler)
  | finished (result : Except Cancelled (List LanguageOverride))

/-- How far the search is, and whether the request has arrived. -/
structure State where
  requested : Bool
  stage : Stage

/-- One step of the search, or the arrival of the request. A request that has arrived stays. -/
inductive Step (filter : IgnoreFilter) (types : List NamedType) : State → State → Prop where
  | request (stage : Stage) : Step filter types ⟨false, stage⟩ ⟨true, stage⟩
  | scan (scans : List MarkerScan) (resource : Resource) (rest : List Resource) :
      Step filter types ⟨false, .scanning scans (resource :: rest)⟩
        ⟨false, .scanning (scans ++ [.ofResource resource]) rest⟩
  | stopScan (scans : List MarkerScan) (resource : Resource) (rest : List Resource) :
      Step filter types ⟨true, .scanning scans (resource :: rest)⟩ ⟨true, .finished (.error ⟨⟩)⟩
  /-- Without a marked name no type is handled. -/
  | skip (requested : Bool) {scans : List MarkerScan} (h : (markedNames scans).isEmpty = true) :
      Step filter types ⟨requested, .scanning scans []⟩ ⟨requested, .finished (.ok [])⟩
  | start (requested : Bool) {scans : List MarkerScan} (h : (markedNames scans).isEmpty = false) :
      Step filter types ⟨requested, .scanning scans []⟩
        ⟨requested, .handling ⟨markedNames scans, filter⟩ (types.map .waiting)⟩
  | begin (analysis : Analysis) (before : List Handler) (type : NamedType)
      (after : List Handler) :
      Step filter types ⟨false, .handling analysis (before ++ .waiting type :: after)⟩
        ⟨false, .handling analysis (before ++ .begun type :: after)⟩
  | stop (analysis : Analysis) (before : List Handler) (type : NamedType) (after : List Handler) :
      Step filter types ⟨true, .handling analysis (before ++ .waiting type :: after)⟩
        ⟨true, .handling analysis (before ++ .stopped :: after)⟩
  | find (requested : Bool) (analysis : Analysis) (before : List Handler) (type : NamedType)
      (after : List Handler) :
      Step filter types ⟨requested, .handling analysis (before ++ .begun type :: after)⟩
        ⟨requested, .handling analysis (before ++ .found (analysis.ofType type) :: after)⟩
  | collect (requested : Bool) (analysis : Analysis) (found : List (List LanguageOverride)) :
      Step filter types ⟨requested, .handling analysis (found.map .found)⟩
        ⟨requested, .finished (.ok (found.flatten.mergeSort fun a b => a.location.le b.location))⟩
  /-- A handler that was stopped is enough, whatever becomes of the others. -/
  | giveUp (requested : Bool) (analysis : Analysis) (before after : List Handler) :
      Step filter types ⟨requested, .handling analysis (before ++ .stopped :: after)⟩
        ⟨requested, .finished (.error ⟨⟩)⟩

abbrev Reaches (filter : IgnoreFilter) (types : List NamedType) : State → State → Prop :=
  Relation.ReflTransGen (Step filter types)

variable {filter : IgnoreFilter} {types : List NamedType} {state next : State}

/-! ### Every search ends -/

namespace Handler

def work : Handler → Nat
  | waiting _ => 2
  | begun _ => 1
  | found _ => 0
  | stopped => 0

def workAll : List Handler → Nat
  | [] => 0
  | handler :: handlers => handler.work + workAll handlers

theorem workAll_append (handlers handlers' : List Handler) :
    workAll (handlers ++ handlers') = workAll handlers + workAll handlers' := by
  induction handlers with
  | nil => simp [workAll]
  | cons handler handlers ih => rw [List.cons_append, workAll, workAll, ih, Nat.add_assoc]

theorem workAll_waiting (types : List NamedType) :
    workAll (types.map .waiting) = 2 * types.length := by
  induction types with
  | nil => rfl
  | cons type types ih =>
      rw [List.map_cons, workAll, ih, List.length_cons, work]
      omega

/-- Either all handlers have found their issues, or one of them has not. -/
theorem all_found_or (handlers : List Handler) :
    (∃ found : List (List LanguageOverride), handlers = found.map .found) ∨
      ∃ before handler after, handlers = before ++ handler :: after ∧
        ∀ issues, handler ≠ .found issues := by
  induction handlers with
  | nil => exact .inl ⟨[], rfl⟩
  | cons handler handlers ih =>
      cases handler with
      | found issues =>
          rcases ih with ⟨found, rfl⟩ | ⟨before, handler, after, rfl, hne⟩
          · exact .inl ⟨issues :: found, rfl⟩
          · exact .inr ⟨.found issues :: before, handler, after, rfl, hne⟩
      | waiting type => exact .inr ⟨[], _, handlers, rfl, fun _ h => by cases h⟩
      | begun type => exact .inr ⟨[], _, handlers, rfl, fun _ h => by cases h⟩
      | stopped => exact .inr ⟨[], _, handlers, rfl, fun _ h => by cases h⟩

end Handler

/-- A bound for the steps that are still to come. -/
def State.work (types : List NamedType) (state : State) : Nat :=
  (if state.requested then 0 else 1) +
    match state.stage with
    | .scanning _ rest => rest.length + 2 * types.length + 2
    | .handling _ handlers => Handler.workAll handlers + 1
    | .finished _ => 0

theorem Step.work_lt (h : Step filter types state next) : next.work types < state.work types := by
  cases h with
  | request stage => simp [State.work]
  | scan scans resource rest => simp [State.work]
  | stopScan scans resource rest => simp [State.work]
  | skip requested _ => simp [State.work]
  | start requested _ =>
      simp only [State.work, Handler.workAll_waiting, List.length_nil]
      omega
  | begin analysis before type after =>
      simp [State.work, Handler.workAll_append, Handler.workAll, Handler.work]
  | stop analysis before type after =>
      simp [State.work, Handler.workAll_append, Handler.workAll, Handler.work]
  | find requested analysis before type after =>
      simp [State.work, Handler.workAll_append, Handler.workAll, Handler.work]
  | collect requested analysis found => simp [State.work]
  | giveUp requested analysis before after => simp [State.work]

theorem wellFounded_step (filter : IgnoreFilter) (types : List NamedType) :
    WellFounded fun next state => Step filter types state next :=
  Subrelation.wf Step.work_lt (measure (State.work types)).wf

/-- A search that has not finished can go on, and need not wait for a request. -/
theorem exists_step (filter : IgnoreFilter) (types : List NamedType) (requested : Bool)
    (stage : Stage) :
    (∃ result, stage = .finished result) ∨
      ∃ stage', Step filter types ⟨requested, stage⟩ ⟨requested, stage'⟩ := by
  cases stage with
  | finished result => exact .inl ⟨result, rfl⟩
  | scanning scans rest =>
      refine .inr ?_
      cases rest with
      | nil =>
          cases hnames : (markedNames scans).isEmpty with
          | true => exact ⟨_, .skip requested hnames⟩
          | false => exact ⟨_, .start requested hnames⟩
      | cons resource rest =>
          cases requested with
          | false => exact ⟨_, .scan scans resource rest⟩
          | true => exact ⟨_, .stopScan scans resource rest⟩
  | handling analysis handlers =>
      refine .inr ?_
      rcases Handler.all_found_or handlers with ⟨found, rfl⟩ | ⟨before, handler, after, rfl, hne⟩
      · exact ⟨_, .collect requested analysis found⟩
      · cases handler with
        | found issues => exact absurd rfl (hne issues)
        | stopped => exact ⟨_, .giveUp requested analysis before after⟩
        | begun type => exact ⟨_, .find requested analysis before type after⟩
        | waiting type =>
            cases requested with
            | false => exact ⟨_, .begin analysis before type after⟩
            | true => exact ⟨_, .stop analysis before type after⟩

/-! ### All issues or none -/

def Handler.Fits (analysis : Analysis) (requested : Bool) : Handler → NamedType → Prop
  | waiting type, type' => type = type'
  | begun type, type' => type = type'
  | found issues, type' => issues = analysis.ofType type'
  | stopped, _ => requested = true

theorem Handler.Fits.request {analysis : Analysis} {requested : Bool} {handler : Handler}
    {type : NamedType} (h : handler.Fits analysis requested type) :
    handler.Fits analysis true type := by
  cases handler with
  | stopped => rfl
  | waiting _ => exact h
  | begun _ => exact h
  | found _ => exact h

/-- A handler stands at the place of its type. -/
theorem exists_of_forall₂ {fits : Handler → NamedType → Prop} {handler : Handler}
    {before after : List Handler} {types : List NamedType}
    (h : List.Forall₂ fits (before ++ handler :: after) types) :
    ∃ front type back, types = front ++ type :: back ∧ List.Forall₂ fits before front ∧
      fits handler type ∧ List.Forall₂ fits after back := by
  induction before generalizing types with
  | nil =>
      cases h with
      | @cons _ type _ back hhandler hafter => exact ⟨[], type, back, rfl, .nil, hhandler, hafter⟩
  | cons first before ih =>
      cases h with
      | @cons _ type' _ rest hfirst hrest =>
          obtain ⟨front, type, back, rfl, hbefore, hhandler, hafter⟩ := ih hrest
          exact ⟨type' :: front, type, back, rfl, .cons hfirst hbefore, hhandler, hafter⟩

/-- The step of one handler leaves the others as they are. -/
theorem forall₂_replace {fits : Handler → NamedType → Prop} {handler handler' : Handler}
    {before after : List Handler} {types : List NamedType}
    (h : List.Forall₂ fits (before ++ handler :: after) types)
    (hstep : ∀ type, fits handler type → fits handler' type) :
    List.Forall₂ fits (before ++ handler' :: after) types := by
  obtain ⟨front, type, back, rfl, hbefore, hhandler, hafter⟩ := exists_of_forall₂ h
  exact List.rel_append hbefore (.cons (hstep type hhandler) hafter)

end Inspection

namespace Session

open Inspection

@[simp] theorem resources_fst_setCancellation (session : Session) (cancellation : Cancellation) :
    (session.setCancellation cancellation).resources.1 = session.resources.1 :=
  resources_fst_congr rfl rfl rfl

theorem eq_map_of_fits {analysis : Analysis} {requested : Bool}
    {found : List (List LanguageOverride)} {types : List NamedType}
    (h : List.Forall₂ (Handler.Fits analysis requested) (found.map .found) types) :
    found = types.map analysis.ofType := by
  induction types generalizing found with
  | nil => simpa using h
  | cons type types ih =>
      cases found with
      | nil => cases h
      | cons issues found =>
          cases h with
          | cons hissues hfound => rw [List.map_cons, ih hfound, hissues]

variable [Grammar]

/-- All issues of a project, in the order of their places. -/
def allIssues (session : Session) : List LanguageOverride :=
  (session.sources.1.types.flatMap session.analysis.ofType).mergeSort
    fun a b => a.location.le b.location

theorem issues_setCancellation_never (session : Session) :
    (session.setCancellation .never).issues.1 = .ok session.allIssues := by
  have hnever : (session.setCancellation .never).project.cancellation = .never := rfl
  have h := (issues_spec hnever).1
  rwa [sources_fst_setCancellation, analysis, resources_fst_setCancellation] at h

/-- A search for the issues of a project before its first step. -/
def inspection (session : Session) : State := ⟨false, .scanning [] session.resources.1⟩

/-- What holds after every step of a search for the issues of a project. -/
def Inspects (session : Session) (state : State) : Prop :=
  match state.stage with
  | .scanning scans rest =>
      scans ++ rest.map .ofResource = session.resources.1.map .ofResource
  | .handling analysis handlers =>
      analysis = session.analysis ∧
        List.Forall₂ (Handler.Fits analysis state.requested) handlers session.sources.1.types
  | .finished result =>
      (result = .error ⟨⟩ ∧ state.requested = true) ∨ result = .ok session.allIssues

theorem inspects_inspection (session : Session) : session.Inspects session.inspection := rfl

theorem allIssues_of_isEmpty {session : Session}
    (h : session.analysis.markedNames.isEmpty = true) : session.allIssues = [] := by
  rw [allIssues, Analysis.flatMap_ofType_of_isEmpty h, List.mergeSort_nil]

theorem inspects_of_step {session : Session} {state next : State}
    (hstep : Step session.project.filter session.sources.1.types state next)
    (h : session.Inspects state) : session.Inspects next := by
  cases hstep with
  | request stage =>
      cases stage with
      | scanning scans rest => exact h
      | handling analysis handlers => exact ⟨h.1, h.2.imp fun _ _ hfits => hfits.request⟩
      | finished result =>
          rcases h with ⟨-, hrequested⟩ | hresult
          · cases hrequested
          · exact .inr hresult
  | scan scans resource rest =>
      change scans ++ _ = _ at h
      change scans ++ [_] ++ _ = _
      rw [← h, List.append_assoc]
      rfl
  | stopScan scans resource rest => exact .inl ⟨rfl, rfl⟩
  | @skip requested scans hnames =>
      change scans ++ [] = _ at h
      rw [List.append_nil] at h
      refine .inr (congrArg Except.ok (allIssues_of_isEmpty ?_).symm)
      rw [analysis, ← h]
      exact hnames
  | @start requested scans hnames =>
      change scans ++ [] = _ at h
      rw [List.append_nil] at h
      refine ⟨by rw [h]; rfl, ?_⟩
      rw [List.forall₂_map_left_iff]
      exact List.forall₂_same.mpr fun _ _ => rfl
  | begin analysis before type after => exact ⟨h.1, forall₂_replace h.2 fun _ htype => htype⟩
  | stop analysis before type after => exact ⟨h.1, forall₂_replace h.2 fun _ _ => rfl⟩
  | find requested analysis before type after =>
      exact ⟨h.1, forall₂_replace h.2 fun _ htype => congrArg analysis.ofType htype⟩
  | collect requested analysis found =>
      obtain ⟨rfl, hfits⟩ := h
      refine .inr (congrArg Except.ok ?_)
      rw [eq_map_of_fits hfits, allIssues, List.flatMap_def]
  | giveUp requested analysis before after =>
      obtain ⟨front, type, back, -, -, hstopped, -⟩ := exists_of_forall₂ h.2
      exact .inl ⟨rfl, hstopped⟩

theorem inspects_of_reaches {session : Session} {state : State}
    (h : Reaches session.project.filter session.sources.1.types session.inspection state) :
    session.Inspects state := by
  induction h with
  | refl => exact session.inspects_inspection
  | tail _ hstep ih => exact inspects_of_step hstep ih

end Session

/-! ### The search in the given order -/

theorem MarkerScan.ofResources_cons {cancellation later : Cancellation}
    (h : cancellation.check = .ok later) (resource : Resource) (rest : List Resource) :
    ofResources (resource :: rest) cancellation =
      (ofResources rest later).map fun read => (ofResource resource :: read.1, read.2) := by
  rw [ofResources, h]
  change (ofResources rest later >>= fun read =>
    pure (ofResource resource :: read.1, read.2)) = _
  cases ofResources rest later <;> rfl

theorem Analysis.checkAll_cons {cancellation later : Cancellation}
    (h : cancellation.check = .ok later) (analysis : Analysis) (type : NamedType)
    (rest : List NamedType) :
    analysis.checkAll (type :: rest) cancellation =
      (analysis.checkAll rest later).map
        fun read => (analysis.ofType type :: read.1, read.2) := by
  rw [checkAll, check, h]
  change (analysis.checkAll rest later >>= fun read =>
    pure (analysis.ofType type :: read.1, read.2)) = _
  cases analysis.checkAll rest later <;> rfl

namespace Inspection

variable {filter : IgnoreFilter} {types : List NamedType}

theorem reaches_arrived (filter : IgnoreFilter) (types : List NamedType)
    (cancellation : Cancellation) (stage : Stage) :
    Reaches filter types ⟨false, stage⟩ ⟨cancellation.arrived, stage⟩ := by
  cases cancellation.arrived with
  | false => exact .refl
  | true => exact .single (.request stage)

/-- Where work leads that looked for the request: to the end if it was cancelled, else on to a stage
with what it found. -/
def landing {α : Type} (stage : α → Stage) : Except Cancelled (α × Cancellation) → State
  | .error cause => ⟨true, .finished (.error cause)⟩
  | .ok (found, later) => ⟨later.arrived, stage found⟩

theorem landing_map {α : Type} (stage : α → Stage) (f : α → α)
    (result : Except Cancelled (α × Cancellation)) :
    landing stage (result.map fun read => (f read.1, read.2)) =
      landing (fun found => stage (f found)) result := by
  cases result with
  | error cause => rfl
  | ok read => rfl

/-- The scan of the resource files is one of the ways to take the steps. -/
theorem reaches_ofResources (scans : List MarkerScan) (rest : List Resource)
    (cancellation : Cancellation) :
    Reaches filter types ⟨cancellation.arrived, .scanning scans rest⟩
      (landing (fun found => .scanning (scans ++ found) [])
        (MarkerScan.ofResources rest cancellation)) := by
  induction rest generalizing scans cancellation with
  | nil => rw [MarkerScan.ofResources, landing, List.append_nil]
  | cons resource rest ih =>
      rcases cancellation.check_cases with ⟨harrived, hcheck⟩ | ⟨later, harrived, hcheck⟩
      · rw [MarkerScan.ofResources, hcheck, harrived]
        exact .single (.stopScan scans resource rest)
      · have hlater := ih (scans ++ [.ofResource resource]) later
        rw [MarkerScan.ofResources_cons hcheck, landing_map, harrived]
        simp only [List.append_assoc, List.singleton_append] at hlater
        exact .head (.scan scans resource rest)
          ((reaches_arrived filter types later _).trans hlater)

/-- So is the work on the types. -/
theorem reaches_checkAll (analysis : Analysis) (done : List (List LanguageOverride))
    (rest : List NamedType) (cancellation : Cancellation) :
    Reaches filter types
      ⟨cancellation.arrived, .handling analysis (done.map .found ++ rest.map .waiting)⟩
      (landing (fun found => .handling analysis ((done ++ found).map .found))
        (analysis.checkAll rest cancellation)) := by
  induction rest generalizing done cancellation with
  | nil => rw [Analysis.checkAll, landing, List.append_nil, List.map_nil, List.append_nil]
  | cons type rest ih =>
      rcases cancellation.check_cases with ⟨harrived, hcheck⟩ | ⟨later, harrived, hcheck⟩
      · rw [Analysis.checkAll, Analysis.check, hcheck, harrived]
        exact .head (.stop analysis _ type _) (.single (.giveUp true analysis _ _))
      · have hlater := ih (done ++ [analysis.ofType type]) later
        rw [Analysis.checkAll_cons hcheck, landing_map, harrived]
        simp only [List.append_assoc, List.singleton_append, List.map_append, List.map_cons,
          List.map_nil] at hlater ⊢
        exact .head (.begin analysis _ type _) (.head (.find false analysis _ type _)
          ((reaches_arrived filter types later _).trans hlater))

end Inspection

namespace Session

open Inspection

variable [Grammar]

/-- What is found under any cancellation. -/
theorem issues_fst_setCancellation (session : Session) (cancellation : Cancellation) :
    (session.setCancellation cancellation).issues.1 = (do
      let scan ← MarkerScan.ofResources session.resources.1 cancellation
      if (markedNames scan.1).isEmpty then .ok []
      else
        let analysis : Analysis := ⟨markedNames scan.1, session.project.filter⟩
        let read ← analysis.checkAll session.sources.1.types scan.2
        .ok (read.1.flatten.mergeSort fun a b => a.location.le b.location)) := by
  have hfilter : (session.setCancellation cancellation).resources.2.project.filter =
      session.project.filter := filter_resources _
  have hcancellation : (session.setCancellation cancellation).resources.2.project.cancellation =
      cancellation := cancellation_resources _
  simp only [issues, resources_fst_setCancellation, hfilter, hcancellation, Analysis.ofResources]
  cases MarkerScan.ofResources session.resources.1 cancellation with
  | error cause => rfl
  | ok scan =>
      have hlater (session : Session) :
          (session.setCancellation scan.2).sources.2.project.cancellation = scan.2 :=
        cancellation_sources _
      have hsources : ((session.setCancellation cancellation).resources.2.setCancellation
          scan.2).sources.1 = session.sources.1 :=
        (sources_fst_resources _ _).trans (sources_fst_setCancellation _ _)
      simp only [bind, Except.bind, pure, Except.pure, hsources, hlater, Analysis.issues]
      split
      · rfl
      · cases Analysis.checkAll ⟨markedNames scan.1, session.project.filter⟩
            session.sources.1.types scan.2 with
        | error cause => rfl
        | ok read => rfl

/-- The search that the program makes is one of the ways to take the steps, whenever the request
arrives. -/
theorem reaches_issues (session : Session) (cancellation : Cancellation) :
    ∃ requested, Reaches session.project.filter session.sources.1.types session.inspection
      ⟨requested, .finished (session.setCancellation cancellation).issues.1⟩ := by
  have hscan := (reaches_arrived session.project.filter session.sources.1.types cancellation
    (.scanning [] session.resources.1)).trans
      (reaches_ofResources [] session.resources.1 cancellation)
  rw [issues_fst_setCancellation]
  cases hread : MarkerScan.ofResources session.resources.1 cancellation with
  | error cause =>
      rw [hread] at hscan
      exact ⟨true, hscan⟩
  | ok scan =>
      obtain ⟨scans, later⟩ := scan
      rw [hread] at hscan
      simp only [bind, Except.bind]
      cases hnames : (markedNames scans).isEmpty with
      | true => exact ⟨later.arrived, hscan.tail (.skip later.arrived hnames)⟩
      | false =>
          have hhandle := (hscan.tail (.start later.arrived hnames)).trans
            (reaches_checkAll ⟨markedNames scans, session.project.filter⟩ []
              session.sources.1.types later)
          rw [if_neg Bool.false_ne_true]
          cases hcheck : Analysis.checkAll _ session.sources.1.types later with
          | error cause =>
              rw [hcheck] at hhandle
              exact ⟨true, hhandle⟩
          | ok read =>
              rw [hcheck] at hhandle
              exact ⟨read.2.arrived, hhandle.tail (.collect _ _ read.1)⟩

/-- The search for issues is all or nothing. Whatever the order in which types are handled and
whenever the request to cancel arrives, a search that has finished either was stopped by the request
or has found what an undisturbed search finds. Every search ends, and it never waits for the
request. What the program does is one of these searches. -/
theorem issues_all_or_nothing (session : Session) :
    (∀ requested result,
      Reaches session.project.filter session.sources.1.types session.inspection
        ⟨requested, .finished result⟩ →
      (result = .error ⟨⟩ ∧ requested = true) ∨
        result = (session.setCancellation .never).issues.1) ∧
    (WellFounded fun next state =>
      Step session.project.filter session.sources.1.types state next) ∧
    (∀ requested stage,
      Reaches session.project.filter session.sources.1.types session.inspection
        ⟨requested, stage⟩ →
      (∃ result, stage = .finished result) ∨ ∃ stage',
        Step session.project.filter session.sources.1.types ⟨requested, stage⟩
          ⟨requested, stage'⟩) ∧
    ∀ cancellation,
      (∃ requested, Reaches session.project.filter session.sources.1.types session.inspection
        ⟨requested, .finished (session.setCancellation cancellation).issues.1⟩) ∧
      ((session.setCancellation cancellation).issues.1 = .error ⟨⟩ ∨
        (session.setCancellation cancellation).issues.1 =
          (session.setCancellation .never).issues.1) := by
  have hresult : ∀ requested result,
      Reaches session.project.filter session.sources.1.types session.inspection
        ⟨requested, .finished result⟩ →
      (result = .error ⟨⟩ ∧ requested = true) ∨
        result = (session.setCancellation .never).issues.1 := by
    intro requested result hreaches
    rw [issues_setCancellation_never]
    exact inspects_of_reaches hreaches
  refine ⟨hresult, wellFounded_step _ _, fun requested stage _ => exists_step _ _ requested stage,
    fun cancellation => ?_⟩
  obtain ⟨requested, hreaches⟩ := session.reaches_issues cancellation
  exact ⟨⟨requested, hreaches⟩, (hresult requested _ hreaches).imp_left And.left⟩

end Session

/-- Two forms, both with the marker in their resource files. -/
def twoForms : Session :=
  let form (name : String) : SourceFile :=
    { path := name ++ ".cs"
      source := "App " ++ name
      tree := [⟨.namespaceBlock, ⟨0, 5⟩, false, [⟨.other, ⟨0, 3⟩, true, []⟩,
        ⟨.type .classType, ⟨4, 5⟩, false, [⟨.other, ⟨4, 5⟩, true, []⟩]⟩]⟩] }
  { files := ⟨[], []⟩
    project :=
      { config := {}, root := ".", sourceFiles := [], resourceFiles := [], verbose := false
        sources := some ⟨[form "A", form "B"], []⟩
        resources := some [⟨"A.resx", "$this.Language"⟩, ⟨"B.resx", "$this.Language"⟩] } }

open Inspection in
/-- The second form is handled before the first one is begun, and the request arrives after the last
check: the result is the undisturbed one. -/
theorem Session.issues_all_or_nothing_twoForms :
    ∃ found, Reaches twoForms.project.filter twoForms.sources.1.types twoForms.inspection
        ⟨true, .finished (.ok found)⟩ ∧
      (twoForms.setCancellation .never).issues.1 = .ok found ∧
      found.map (·.typeName) = ["A", "B"] ∧
      (twoForms.setCancellation ⟨some 1⟩).issues.1 = .error ⟨⟩ := by
  let form (name : String) : NamedType :=
    ⟨name, "App." ++ name, .classType, [⟨name ++ ".cs", 1, 5, "App " ++ name⟩]⟩
  let analysis : Analysis := twoForms.analysis
  let found := [analysis.ofType (form "A"), analysis.ofType (form "B")]
  have hnames : Text.sortedSet ["App.A", "App.B"] = ["App.A", "App.B"] :=
    List.mergeSort_of_pairwise (by decide +kernel)
  have htypes : twoForms.sources.1.types = [form "A", form "B"] := by
    have hdeclared : (twoForms.sources.1.files.flatMap SourceFile.qualified).map (·.1) =
        ["App.A", "App.B"] := by decide +kernel
    rw [Sources.types, NamedType.ofFiles, hdeclared, hnames]
    decide +kernel
  have hsorted : found.flatten.mergeSort (fun a b => a.location.le b.location) = found.flatten :=
    List.mergeSort_of_pairwise (by decide +kernel)
  have hrun : Reaches twoForms.project.filter [form "A", form "B"] twoForms.inspection
      ⟨true, .finished (.ok (found.flatten.mergeSort fun a b => a.location.le b.location))⟩ := by
    refine .head (.scan _ _ _) (.head (.scan _ _ _) (.head (.start false (by decide +kernel)) ?_))
    refine .head (.begin analysis [.waiting (form "A")] (form "B") []) ?_
    refine .head (.find false analysis [.waiting (form "A")] (form "B") []) ?_
    refine .head (.begin analysis [] (form "A") [.found _]) ?_
    refine .head (.find false analysis [] (form "A") [.found _]) ?_
    exact .head (.request _) (.single (.collect true analysis found))
  rw [← htypes, hsorted] at hrun
  refine ⟨found.flatten, hrun, ?_, by decide +kernel, rfl⟩
  rcases twoForms.issues_all_or_nothing.1 true _ hrun with ⟨herror, -⟩ | hsame
  · cases herror
  · exact hsame.symm

end ResourceLanguage
