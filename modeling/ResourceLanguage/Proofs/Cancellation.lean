import ResourceLanguage.Cancellation

/-!
The moment at which a request to cancel arrives. It has arrived when no more checks succeed; before
that, a check succeeds and the request is one check nearer.
-/

namespace ResourceLanguage.Cancellation

def arrived (cancellation : Cancellation) : Bool := cancellation.remaining == some 0

theorem check_cases (cancellation : Cancellation) :
    (cancellation.arrived = true ∧ cancellation.check = .error ⟨⟩) ∨
      ∃ later, cancellation.arrived = false ∧ cancellation.check = .ok later := by
  obtain ⟨_ | _ | n⟩ := cancellation
  · exact .inr ⟨_, rfl, rfl⟩
  · exact .inl ⟨rfl, rfl⟩
  · exact .inr ⟨_, rfl, rfl⟩

theorem check_of_arrived {cancellation : Cancellation} (h : cancellation.arrived = true) :
    cancellation.check = .error ⟨⟩ := by
  rcases cancellation.check_cases with ⟨-, hcheck⟩ | ⟨later, harrived, -⟩
  · exact hcheck
  · rw [harrived] at h
    cases h

/-- Every view of the future is what one successful check leaves. -/
theorem exists_check_eq_ok (later : Cancellation) :
    ∃ cancellation : Cancellation, cancellation.check = .ok later := by
  obtain ⟨_ | n⟩ := later
  · exact ⟨.never, rfl⟩
  · exact ⟨⟨some (n + 1)⟩, rfl⟩

end ResourceLanguage.Cancellation
