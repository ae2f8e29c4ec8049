/-!
Texts cut in two. A scanner that returns a cut of its input cannot lose or invent characters.
-/

namespace ResourceLanguage.Text

/-- A cut of the text `cs` into what was taken and the rest. -/
structure Cut (cs : List Char) where
  taken : List Char
  rest : List Char
  eq : taken ++ rest = cs

namespace Cut

def none (cs : List Char) : Cut cs := ⟨[], cs, rfl⟩

def one (c : Char) (cs : List Char) : Cut (c :: cs) := ⟨[c], cs, rfl⟩

def run (p : Char → Bool) (cs : List Char) : Cut cs :=
  ⟨cs.takeWhile p, cs.dropWhile p, List.takeWhile_append_dropWhile⟩

/-- Takes one character more, in front. -/
def cons {cs : List Char} (c : Char) (cut : Cut cs) : Cut (c :: cs) :=
  ⟨c :: cut.taken, cut.rest, by simp [cut.eq]⟩

/-- Takes what a second cut takes from the rest of the first. -/
def append {cs : List Char} (first : Cut cs) (second : Cut first.rest) : Cut cs :=
  ⟨first.taken ++ second.taken, second.rest, by rw [List.append_assoc, second.eq, first.eq]⟩

theorem length_rest_le {cs : List Char} (cut : Cut cs) : cut.rest.length ≤ cs.length := by
  have := congrArg List.length cut.eq
  simp at this
  omega

end Cut

end ResourceLanguage.Text
