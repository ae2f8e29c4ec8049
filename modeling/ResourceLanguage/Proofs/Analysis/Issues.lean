import Mathlib.Data.List.Infix
import ResourceLanguage.CSharp.Parser
import ResourceLanguage.Proofs.Analysis.NamedType
import ResourceLanguage.Proofs.Session

/-!
The issues of a project are those declarations whose identifier is the base name of a resource file
with the marker, each reported once and in the order of their places.
-/

namespace ResourceLanguage

open ResourceLanguage.CSharp ResourceLanguage.Text

/-- A declaration that has to be reported: some resource file with the marker has its identifier as
base name, and the file of the declaration is not ignored. -/
def Reported (resources : List Resource) (filter : IgnoreFilter) (declaration : Declaration) :
    Prop :=
  (∃ resource ∈ resources, markerToken.toList <:+: resource.text.toList ∧
      resource.baseName? = some declaration.identifier) ∧
    filter.isIgnored declaration.location.file = false

instance (resources : List Resource) (filter : IgnoreFilter) :
    DecidablePred (Reported resources filter) :=
  fun _ => inferInstanceAs (Decidable (_ ∧ _))

def CSharp.Declaration.issue (declaration : Declaration) : LanguageOverride :=
  { location := declaration.location, typeName := declaration.identifier }

/-! ### Work that is never cancelled -/

theorem MarkerScan.ofResources_never (resources : List Resource) :
    ofResources resources .never = .ok (resources.map ofResource, .never) := by
  induction resources with
  | nil => rfl
  | cons resource resources ih =>
      change (ofResources resources .never >>= fun rest =>
        pure (ofResource resource :: rest.1, rest.2)) = _
      rw [ih]
      rfl

namespace Analysis

theorem checkAll_never (analysis : Analysis) (types : List NamedType) :
    analysis.checkAll types .never = .ok (types.map analysis.ofType, .never) := by
  induction types with
  | nil => rfl
  | cons type types ih =>
      change (analysis.checkAll types .never >>= fun rest =>
        pure (analysis.ofType type :: rest.1, rest.2)) = _
      rw [ih]
      rfl

theorem issues_never (analysis : Analysis) (types : List NamedType) :
    analysis.issues types .never =
      .ok ((types.flatMap analysis.ofType).mergeSort fun a b => a.location.le b.location,
        .never) := by
  simp only [issues, checkAll_never, List.flatMap_def]
  rfl

end Analysis

/-! ### The names with the marker -/

theorem mem_markedNames {resources : List Resource} {name : String} :
    name ∈ markedNames (resources.map MarkerScan.ofResource) ↔
      ∃ resource ∈ resources, markerToken.toList <:+: resource.text.toList ∧
        resource.baseName? = some name := by
  rw [markedNames, List.mem_eraseDups, List.mem_filterMap]
  constructor
  · rintro ⟨scan, hscan, hname⟩
    obtain ⟨resource, hresource, rfl⟩ := List.mem_map.mp hscan
    by_cases hmarker : hasMarker resource.text = true
    · exact ⟨resource, hresource, occursIn_iff_isInfix.mp hmarker, by
        simpa [MarkerScan.ofResource, hmarker] using hname⟩
    · simp [MarkerScan.ofResource, hmarker] at hname
  · rintro ⟨resource, hresource, hmarker, hname⟩
    have hmarker : hasMarker resource.text = true := occursIn_iff_isInfix.mpr hmarker
    exact ⟨_, List.mem_map_of_mem hresource, by simp [MarkerScan.ofResource, hmarker, hname]⟩

/-! ### The issues of one named type -/

namespace Analysis

def reports (analysis : Analysis) (declaration : Declaration) : Bool :=
  decide (declaration.identifier ∈ analysis.markedNames) &&
    !analysis.filter.isIgnored declaration.location.file

/-- The issues of a named type are those of the declarations that were merged into it. -/
theorem ofType_perm (analysis : Analysis) {declared : List (String × Declaration)}
    (hidentifier : ∀ found ∈ declared, found.2.identifier = afterLastDot found.1)
    {name : String} (hname : name ∈ declared.map (·.1)) :
    ((NamedType.ofName? declared name).toList.flatMap analysis.ofType).Perm
      (((declared.filter (·.1 == name)).filter fun found => analysis.reports found.2).map
        (·.2.issue)) := by
  obtain ⟨type, htype, _, hlocations, declaration, hmem, htypeName⟩ :=
    NamedType.ofName?_of_mem hname
  have htypeName : type.name = afterLastDot name := htypeName.trans (hidentifier _ hmem)
  -- The type has the identifier of its first declaration only, but all of them have the same one:
  -- it is what follows the last dot of the name that they share.
  have hgroup : ∀ found ∈ declared.filter (·.1 == name), found.2.identifier = type.name := by
    intro found hfound
    obtain ⟨hfound, hkey⟩ := List.mem_filter.mp hfound
    rw [hidentifier found hfound, htypeName, beq_iff_eq.mp hkey]
  simp only [htype, Option.toList_some, List.flatMap_cons, List.flatMap_nil, List.append_nil]
  by_cases hmarked : type.name ∈ analysis.markedNames
  · have hfilter : (declared.filter (·.1 == name)).filter (fun found => analysis.reports found.2) =
        (declared.filter (·.1 == name)).filter
          fun found => !analysis.filter.isIgnored found.2.location.file := by
      refine List.filter_congr fun found hfound => ?_
      simp [reports, hgroup found hfound, hmarked]
    have hissue : ((declared.filter (·.1 == name)).filter
          fun found => !analysis.filter.isIgnored found.2.location.file).map (·.2.issue) =
        (((declared.filter (·.1 == name)).map (·.2.location)).filter
          fun location => !analysis.filter.isIgnored location.file).map
            fun location => ⟨location, type.name⟩ := by
      rw [List.filter_map, List.map_map]
      refine List.map_congr_left fun found hfound => ?_
      simp [Declaration.issue, hgroup found (List.mem_filter.mp hfound).1]
    rw [ofType, if_pos hmarked, hfilter, hissue]
    exact (hlocations.filter _).map _
  · have hnone : (declared.filter (·.1 == name)).filter (fun found => analysis.reports found.2) =
        [] := by
      refine List.filter_eq_nil_iff.mpr fun found hfound => ?_
      simp [reports, hgroup found hfound, hmarked]
    rw [ofType, if_neg hmarked, hnone]
    exact .refl _

/-- All issues of the named types of some files. -/
theorem flatMap_ofType_perm (analysis : Analysis) {files : List SourceFile}
    (dotless : ∀ file ∈ files, ∀ declaration ∈ file.declarations,
      '.' ∉ declaration.identifier.toList) :
    ((NamedType.ofFiles files).flatMap analysis.ofType).Perm
      (((files.flatMap (·.declarations)).filter analysis.reports).map Declaration.issue) := by
  have hidentifier : ∀ found ∈ declared files, found.2.identifier = afterLastDot found.1 :=
    fun found hfound => identifier_of_mem_declared dotless hfound
  let names := sortedSet ((declared files).map (·.1))
  have hcut : (names.flatMap fun name =>
      ((declared files).filter (·.1 == name)).filter fun found => analysis.reports found.2).Perm
        ((declared files).filter fun found => analysis.reports found.2) := by
    have hkeys := perm_flatMap_filter_key (·.1) (nodup_sortedSet ((declared files).map (·.1)))
      ((declared files).filter fun found => analysis.reports found.2) (by
        intro found hfound
        exact mem_sortedSet.mpr (List.mem_map_of_mem (List.mem_filter.mp hfound).1))
    simpa only [List.filter_filter, Bool.and_comm] using hkeys
  calc
    ((NamedType.ofFiles files).flatMap analysis.ofType).Perm
        (names.flatMap fun name =>
          (NamedType.ofName? (declared files) name).toList.flatMap analysis.ofType) := by
      rw [NamedType.ofFiles, List.filterMap_eq_flatMap_toList, List.flatMap_assoc]
      exact .refl _
    List.Perm _ (names.flatMap fun name =>
          (((declared files).filter (·.1 == name)).filter
            fun found => analysis.reports found.2).map (·.2.issue)) :=
      List.Perm.flatMap_left names fun name hname =>
        analysis.ofType_perm hidentifier (mem_sortedSet.mp hname)
    List.Perm _ (((declared files).filter fun found => analysis.reports found.2).map
          (·.2.issue)) := by
      rw [← List.map_flatMap]
      exact hcut.map _
    List.Perm _ (((files.flatMap (·.declarations)).filter analysis.reports).map
          Declaration.issue) := by
      rw [← map_snd_declared, List.filter_map, List.map_map]
      exact .refl _

end Analysis

/-! ### The issues of a project -/

/-- What an analysis of some resource files reports is what has to be reported. -/
theorem reports_eq_decide (resources : List Resource) (filter : IgnoreFilter) :
    Analysis.reports ⟨markedNames (resources.map MarkerScan.ofResource), filter⟩ =
      fun declaration => decide (Reported resources filter declaration) := by
  funext declaration
  rw [Bool.eq_iff_iff, decide_eq_true_iff, Analysis.reports, Bool.and_eq_true,
    decide_eq_true_iff, mem_markedNames, Bool.not_eq_true']
  rfl

/-- Without a marked name there is nothing to report. -/
theorem Analysis.flatMap_ofType_of_isEmpty {analysis : Analysis}
    (h : analysis.markedNames.isEmpty = true) (types : List NamedType) :
    types.flatMap analysis.ofType = [] := by
  rw [List.isEmpty_iff] at h
  exact List.flatMap_eq_nil_iff.mpr fun type _ => by simp [ofType, h]

namespace Session

/-- What the resource files of a project say about its types. -/
def analysis (session : Session) : Analysis :=
  ⟨markedNames (session.resources.1.map MarkerScan.ofResource), session.project.filter⟩

theorem analysis_of_uncancelled {session : Session}
    (uncancelled : session.project.cancellation = .never) :
    Analysis.ofResources session.resources.2.project.filter session.resources.1
        session.resources.2.project.cancellation = .ok (session.analysis, .never) := by
  rw [filter_resources, cancellation_resources, uncancelled, Analysis.ofResources,
    MarkerScan.ofResources_never]
  rfl

/-- Looking for issues has no effect but that files have been read. -/
theorem issues_spec [Grammar] {session : Session}
    (uncancelled : session.project.cancellation = .never) :
    session.issues.1 = .ok ((session.sources.1.types.flatMap session.analysis.ofType).mergeSort
      fun a b => a.location.le b.location) ∧
    session.issues.2.files = session.files ∧
    session.issues.2.project.cancellation = .never ∧
    session.issues.2.sources.1 = session.sources.1 := by
  simp only [issues, analysis_of_uncancelled uncancelled]
  split
  · rename_i hempty
    rw [Analysis.flatMap_ofType_of_isEmpty hempty]
    exact ⟨by rw [List.mergeSort_nil], session.files_resources, rfl,
      session.sources_fst_resources .never⟩
  · have hnever : (session.resources.2.setCancellation .never).sources.2.project.cancellation =
        .never := by
      rw [cancellation_sources]
      rfl
    simp only [sources_fst_resources, hnever, Analysis.issues_never]
    refine ⟨trivial, ?_, rfl, ?_⟩
    · exact (files_sources _).trans session.files_resources
    · rw [sources_fst_setCancellation, sources_fst_sources, sources_fst_resources]

/-- Remarks have no part in the issues. -/
theorem issues_fst_congr [Grammar] {first second : Session} (hfiles : first.files = second.files)
    (hproject : first.project = second.project)
    (uncancelled : second.project.cancellation = .never) :
    first.issues.1 = second.issues.1 := by
  have hsources : first.sources.1 = second.sources.1 :=
    sources_fst_congr hfiles (by rw [hproject]) (by rw [hproject]) (by rw [hproject])
  have hresources : first.resources.1 = second.resources.1 :=
    resources_fst_congr hfiles (by rw [hproject]) (by rw [hproject])
  rw [(issues_spec uncancelled).1, (issues_spec (hproject ▸ uncancelled)).1, analysis, analysis,
    hsources, hresources, hproject]

end Session

/-- The issues of a project that is not cancelled report exactly the declarations that have to be
reported, each of them once, in the order of file, line and column. -/
theorem Session.issues_perm_reported [Grammar] (session : Session)
    (uncancelled : session.project.cancellation = .never)
    (dotless : ∀ file ∈ session.sources.1.files, ∀ declaration ∈ file.declarations,
      '.' ∉ declaration.identifier.toList) :
    ∃ found, session.issues.1 = .ok found ∧
      found.Perm (((session.sources.1.files.flatMap (·.declarations)).filter
        fun declaration => Reported session.resources.1 session.project.filter declaration).map
          Declaration.issue) ∧
      found.Pairwise fun a b => a.location.key ≤ b.location.key := by
  have hperm := Analysis.flatMap_ofType_perm
    ⟨markedNames (session.resources.1.map MarkerScan.ofResource), session.project.filter⟩ dotless
  rw [reports_eq_decide] at hperm
  have hscan : Analysis.ofResources session.project.filter session.resources.1 .never =
      .ok (⟨markedNames (session.resources.1.map MarkerScan.ofResource),
        session.project.filter⟩, .never) := by
    rw [Analysis.ofResources, MarkerScan.ofResources_never]
    rfl
  simp only [issues, filter_resources, cancellation_resources, uncancelled, hscan]
  split
  · rename_i hempty
    rw [Analysis.flatMap_ofType_of_isEmpty hempty] at hperm
    exact ⟨[], rfl, hperm, .nil⟩
  · have hnever : (session.resources.2.setCancellation .never).sources.2.project.cancellation =
        .never := by
      rw [cancellation_sources]
      rfl
    simp only [sources_fst_resources, hnever, Analysis.issues_never]
    refine ⟨_, rfl, (List.mergeSort_perm _ _).trans hperm, ?_⟩
    exact Location.pairwise_key_mergeSort LanguageOverride.location _

/-- A form declared in three files, one of them written by a designer, beside a resource file with
the marker. -/
def partialForm : Session :=
  let part (file : String) : SourceFile :=
    { path := file
      source := "App Form"
      tree := [⟨.namespaceBlock, ⟨0, 8⟩, false, [⟨.other, ⟨0, 3⟩, true, []⟩,
        ⟨.type .classType, ⟨4, 8⟩, false, [⟨.other, ⟨4, 8⟩, true, []⟩]⟩]⟩] }
  { files := ⟨[], []⟩
    project :=
      { config := {}, root := ".", sourceFiles := [], resourceFiles := [], verbose := false
        sources := some ⟨[part "b.cs", part "a.cs", part "a.Designer.cs"], []⟩
        resources := some [⟨"x/Form.resx", "$this.Language"⟩] } }

theorem Session.issues_partialForm :
    ∃ found, partialForm.issues.1 = .ok found ∧
      found.Perm
        [⟨⟨"a.cs", 1, 5, "App Form"⟩, "Form"⟩, ⟨⟨"b.cs", 1, 5, "App Form"⟩, "Form"⟩] ∧
      found.Pairwise fun a b => a.location.key ≤ b.location.key := by
  obtain ⟨found, hfound, hperm, hsorted⟩ :=
    partialForm.issues_perm_reported rfl (by decide +kernel)
  have hlist : ((partialForm.sources.1.files.flatMap (·.declarations)).filter
        fun declaration =>
          Reported partialForm.resources.1 partialForm.project.filter declaration).map
            Declaration.issue =
      [⟨⟨"b.cs", 1, 5, "App Form"⟩, "Form"⟩, ⟨⟨"a.cs", 1, 5, "App Form"⟩, "Form"⟩] := by
    decide +kernel
  rw [hlist] at hperm
  exact ⟨found, hfound, hperm.trans (.swap _ _ _), hsorted⟩

end ResourceLanguage
