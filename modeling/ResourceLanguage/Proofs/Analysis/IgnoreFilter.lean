import ResourceLanguage.Proofs.Analysis.Interleaving
import ResourceLanguage.Proofs.Text.Lowercase

/-!
Ignored files. A file is ignored if the small form of its path ends with the small form of a suffix.
The two small forms are made apart from each other, so a path that ends with the suffix itself is
not ignored if the end of the path has a final sigma where the suffix alone has none.
-/

namespace ResourceLanguage

open ResourceLanguage.CSharp ResourceLanguage.Text

theorem IgnoreFilter.isIgnored_ofSuffixes_iff {suffixes : List String} {path : Path} :
    (ofSuffixes suffixes).isIgnored path = true ↔
      ∃ suffix ∈ suffixes, lowercase suffix.toList <:+ lowercase path.toList := by
  simp [isIgnored, ofSuffixes]

theorem Analysis.isIgnored_of_mem_ofType {analysis : Analysis} {type : NamedType}
    {issue : LanguageOverride} (h : issue ∈ analysis.ofType type) :
    analysis.filter.isIgnored issue.location.file = false := by
  unfold ofType at h
  split at h
  · obtain ⟨location, hlocation, rfl⟩ := List.mem_map.mp h
    simpa using (List.mem_filter.mp hlocation).2
  · cases h

/-- Nothing is reported in an ignored file, whether the search is disturbed by a request to cancel
or not. -/
theorem Session.isIgnored_of_mem_issues [Grammar] {session : Session}
    {found : List LanguageOverride} (hfound : session.issues.1 = .ok found)
    {issue : LanguageOverride} (hissue : issue ∈ found) :
    session.project.filter.isIgnored issue.location.file = false := by
  obtain ⟨requested, hreaches⟩ := session.reaches_issues session.project.cancellation
  have hall : found = session.allIssues := by
    rcases inspects_of_reaches hreaches with ⟨herror, -⟩ | hok
    · cases hfound.symm.trans herror
    · exact Except.ok.inj (hfound.symm.trans hok)
  rw [hall, allIssues, (List.mergeSort_perm _ _).mem_iff, List.mem_flatMap] at hissue
  obtain ⟨type, -, hissue⟩ := hissue
  exact Analysis.isIgnored_of_mem_ofType hissue

namespace IgnoreFilter

/-- A path that ends with a suffix, in any case of seven-bit letters, is ignored because of it
unless a letter stands before the suffix and the first letter of the suffix is a sigma that no other
letter follows. Apart from that it is ignored whatever the other suffixes are, and nothing is
reported there. -/
theorem suffix_isIgnored_iff [Grammar] {suffixes : List String} {suffix variant : String}
    (hsuffix : suffix ∈ suffixes) (hvariant : SameLetters suffix.toList variant.toList)
    (front : String) :
    ((ofSuffixes [suffix]).isIgnored (front ++ variant) = true ↔
      ¬(casedNext front.toList.reverse = true ∧ hasOpenSigma suffix.toList = true)) ∧
    (¬(casedNext front.toList.reverse = true ∧ hasOpenSigma suffix.toList = true) →
      (ofSuffixes suffixes).isIgnored (front ++ variant) = true ∧
      ∀ (session : Session) (found : List LanguageOverride),
        session.project.config.ignoreFileSuffixes = suffixes → session.issues.1 = .ok found →
        ∀ issue ∈ found, issue.location.file ≠ front ++ variant) := by
  have hends : lowercase suffix.toList <:+ lowercase (front ++ variant).toList ↔
      ¬(casedNext front.toList.reverse = true ∧ hasOpenSigma suffix.toList = true) := by
    rw [String.toList_append, lowercase, hvariant.lowercaseAfter_eq, hvariant.hasOpenSigma_eq]
    exact lowercase_suffix_iff front.toList variant.toList
  refine ⟨?_, fun hclosed => ?_⟩
  · rw [← hends, isIgnored_ofSuffixes_iff]
    simp
  · have hignored : (ofSuffixes suffixes).isIgnored (front ++ variant) = true :=
      isIgnored_ofSuffixes_iff.mpr ⟨suffix, hsuffix, hends.mpr hclosed⟩
    refine ⟨hignored, fun session found hsuffixes hfound issue hissue hfile => ?_⟩
    have hreported := Session.isIgnored_of_mem_issues hfound hissue
    rw [Project.filter, hsuffixes, hfile, hignored] at hreported
    cases hreported

/-- A sigma that begins the suffix is not final as long as a letter follows it. -/
theorem suffix_isIgnored_iff_extension :
    SameLetters "Σ.Designer.cs".toList "Σ.DESIGNER.cs".toList ∧
      (ofSuffixes [".g.cs", "Σ.Designer.cs"]).isIgnored ("src/ΦΑΚΕΛΟ" ++ "Σ.DESIGNER.cs") =
        true := by
  have hsame : SameLetters "Σ.Designer.cs".toList "Σ.DESIGNER.cs".toList := by decide +kernel
  have hmem : "Σ.Designer.cs" ∈ [".g.cs", "Σ.Designer.cs"] := by decide
  obtain ⟨-, hignored⟩ := suffix_isIgnored_iff hmem hsame "src/ΦΑΚΕΛΟ"
  exact ⟨hsame, (hignored (by decide +kernel)).1⟩

/-- A file whose path ends with a suffix is not ignored, and a type is reported there. -/
theorem sigma_suffix_reported :
    ("AΣ_g.cs" : Path) = "A" ++ "Σ_g.cs" ∧
      (ofSuffixes ["Σ_g.cs"]).isIgnored "AΣ_g.cs" = false ∧
      (⟨["A"], ofSuffixes ["Σ_g.cs"]⟩ : Analysis).ofType
          ⟨"A", "A", .classType, [⟨"AΣ_g.cs", 1, 7, "class A { }"⟩]⟩ =
        [⟨⟨"AΣ_g.cs", 1, 7, "class A { }"⟩, "A"⟩] := by
  decide +kernel

end IgnoreFilter

end ResourceLanguage
