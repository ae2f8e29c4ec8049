/-!
Cooperative cancellation. A request to cancel may arrive at any time; work in progress notices it
at the next check. All that can be observed of a request is therefore how many checks still
succeed before it.
-/

namespace ResourceLanguage

/-- The outcome of work that noticed a request to cancel. -/
structure Cancelled where
  deriving DecidableEq, Repr

def Cancelled.message (_ : Cancelled) : String := "operation was cancelled"

/-- A view of the future of a cancellation request: the number of checks that still succeed, or
nothing when no request will arrive. -/
structure Cancellation where
  remaining : Option Nat
  deriving DecidableEq, Repr

namespace Cancellation

def never : Cancellation := ⟨none⟩

def requested : Cancellation := ⟨some 0⟩

/-- Looks for a request. A request that has arrived stays. -/
def check : Cancellation → Except Cancelled Cancellation
  | ⟨none⟩ => .ok ⟨none⟩
  | ⟨some 0⟩ => .error ⟨⟩
  | ⟨some (n + 1)⟩ => .ok ⟨some n⟩

end Cancellation

end ResourceLanguage
