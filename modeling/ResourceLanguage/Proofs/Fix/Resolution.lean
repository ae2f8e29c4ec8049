import ResourceLanguage.Proofs.ActiveCode.Layout
import ResourceLanguage.Proofs.CSharp.Nesting
import ResourceLanguage.Proofs.Fix.Declared

/-!
The fix for a declaration. The place of a type with members leads back to the type, and so to the
resource file with its name; the place of an enum or a delegate leads to the innermost type with
members around it.
-/

namespace ResourceLanguage

open ResourceLanguage.CSharp ResourceLanguage.Text

theorem path_of_planRestore {files : Workspace} {declaringFile : Path} {typeName : String}
    {plan : Plan} (h : planRestore files declaringFile typeName = .ok (some plan)) :
    plan.path = (directoryOf declaringFile).join (typeName ++ ".resx") := by
  obtain ⟨-, failure, hplan⟩ | ⟨-, -, hplan⟩ | ⟨-, path, text, hpath, -, hplan⟩ :=
    RestoreFix.planRestore_cases ⟨declaringFile, typeName⟩ files
  · rw [h] at hplan
    cases hplan
  · rw [h] at hplan
    cases hplan
  · rw [h] at hplan
    cases hplan
    obtain ⟨_, _, _, _, hjoin⟩ := RestoreFix.companionPath?_eq_some_iff.mp hpath
    rw [String.append_assoc] at hjoin
    exact hjoin

/-- The place of a declaration leads to the innermost type around it, whatever the grammar, as long
as the tree of the file is well-formed. A type with members is the innermost one itself, so the
issue that reports it is fixed in the resource file with its name; any other declaration leads to
the innermost type with members that contains it, if there is one. -/
theorem enclosing?_of_location [Grammar] {path source : String} {symbols : Symbols}
    (wellFormed : (SourceFile.parse path source symbols).WellFormed) {declaration : Declaration}
    (h : declaration ∈ (SourceFile.parse path source symbols).declarations) :
    let file := SourceFile.parse path source symbols
    let found := file.enclosing? declaration.location.line declaration.location.col
    (declaration.kind ∈ TypeKind.containers →
      found = some declaration ∧
      ∀ files paths, path ∈ paths → Sources.readSource files path = .ok source →
        RestoreFix.ofIssue (Sources.ofPaths files symbols paths).files declaration.issue =
            .ok ⟨path, declaration.identifier⟩ ∧
          ∀ plan, planRestore files path declaration.identifier = .ok (some plan) →
            plan.path = (directoryOf path).join (declaration.identifier ++ ".resx")) ∧
    (∀ outer, found = some outer ↔ Declaration.Innermost file.declarations declaration outer) ∧
    (found = none ↔ ∀ outer ∈ file.declarations, outer.kind ∈ TypeKind.containers →
      ¬outer.Contains declaration) := by
  intro file found
  refine ⟨fun hkind => ?_, fun outer => wellFormed.enclosing?_eq_some_iff h,
    wellFormed.enclosing?_eq_none_iff h⟩
  have hmembers := TypeKind.hasMembers_iff.mpr hkind
  have hself := wellFormed.enclosing?_of_mem h hmembers
  exact ⟨hself, fun files paths hpath htext =>
    ⟨RestoreFix.ofIssue_issue hpath htext hself, fun plan => path_of_planRestore⟩⟩

/-- Types in each other after a blank branch, with names of two bytes, an enum inside them and a
delegate behind them. -/
theorem enclosing?_of_location_nested :
    let source :=
      "#if X\nenum Ω { }\n#endif\nclass Ä { struct É { enum E { A } } }\ndelegate void D();\n"
    let file := SourceFile.parse "Ä.cs" source []
    let files : Workspace := ⟨[(["Ä.cs"], .file source.toUTF8.data.toList),
      (["É.resx"], .file [])], []⟩
    file.WellFormed ∧ ∃ outer inner enumeration callback,
      file.declarations = [outer, inner, enumeration, callback] ∧
      inner.kind = .structType ∧ enumeration.kind = .enumType ∧ callback.kind = .delegateType ∧
      file.enclosing? inner.location.line inner.location.col = some inner ∧
      RestoreFix.ofIssue (Sources.ofPaths files [] ["Ä.cs"]).files inner.issue =
        .ok ⟨"Ä.cs", "É"⟩ ∧
      (∃ plan, planRestore files "Ä.cs" "É" = .ok (some plan) ∧ plan.path = "./É.resx") ∧
      file.enclosing? enumeration.location.line enumeration.location.col = some inner ∧
      file.enclosing? callback.location.line callback.location.col = none := by
  intro source file files
  let active :=
    "     \n           \n      \nclass Ä { struct É { enum E { A } } }\ndelegate void D();\n"
  have hactive : activeCode source.toList [] = active.toList := by
    have hlines : rawLines source.toList = [] ++ "#if X\n".toList ::
        ["enum Ω { }\n".toList, "#endif\n".toList,
          "class Ä { struct É { enum E { A } } }\n".toList, "delegate void D();\n".toList] := by
      decide +kernel
    rw [activeCode_of_undefined "X" [] hlines (by decide +kernel) (by decide +kernel)
      (by decide +kernel)]
    decide +kernel
  let line := "class Ä { struct É { enum E { A } } }"
  let outer : Declaration := ⟨.classType, "Ä", ⟨"Ä.cs", 4, 7, line⟩, [], none, ⟨25, 64⟩⟩
  let inner : Declaration := ⟨.structType, "É", ⟨"Ä.cs", 4, 18, line⟩, [], some 0, ⟨36, 62⟩⟩
  let enumeration : Declaration := ⟨.enumType, "E", ⟨"Ä.cs", 4, 27, line⟩, [], some 1, ⟨48, 60⟩⟩
  let callback : Declaration :=
    ⟨.delegateType, "D", ⟨"Ä.cs", 5, 15, "delegate void D();"⟩, [], none, ⟨65, 83⟩⟩
  have hfile : file.declarations = [outer, inner, enumeration, callback] := by
    change declarationsOf "Ä.cs" source.toList [] none 0
      (CSharp.parse (activeCode source.toList [])) = _
    rw [hactive]
    decide +kernel
  have hwellFormed : file.WellFormed := SourceFile.wellFormed_parse "Ä.cs" source []
  have hinner : inner ∈ file.declarations := by simp [hfile]
  have henumeration : enumeration ∈ file.declarations := by simp [hfile]
  have hcallback : callback ∈ file.declarations := by simp [hfile]
  obtain ⟨hself, hfix⟩ := (enclosing?_of_location hwellFormed hinner).1 (by decide)
  obtain ⟨hissue, hplan⟩ := hfix files ["Ä.cs"] (by decide) (by decide +kernel)
  have hplanned : planRestore files "Ä.cs" "É" = .ok (some (Plan.ofText "./É.resx" "")) := by
    decide +kernel
  refine ⟨hwellFormed, outer, inner, enumeration, callback, hfile, rfl, rfl, rfl, hself, hissue,
    ⟨_, hplanned, (hplan _ hplanned).trans (by decide +kernel)⟩, ?_, ?_⟩
  · refine ((enclosing?_of_location hwellFormed henumeration).2.1 inner).mpr
      ⟨hinner, by decide, by decide, ?_⟩
    change ∀ other ∈ file.declarations, _
    rw [hfile]
    decide
  · refine (enclosing?_of_location hwellFormed hcallback).2.2.mpr ?_
    change ∀ outer ∈ file.declarations, _
    rw [hfile]
    decide

end ResourceLanguage
