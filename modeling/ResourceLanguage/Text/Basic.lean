/-!
Characters and texts: white space of every script, pieces of texts, and sorted sets of texts.
Character properties are given by ranges of code points, the form in which they are published.
-/

namespace ResourceLanguage.Text

/-! ### Characters -/

/-- Closed ranges of code points, in increasing order. -/
abbrev CharTable := List (Nat × Nat)

def CharTable.contains (table : CharTable) (c : Char) : Bool :=
  table.any fun range => range.1 ≤ c.toNat && c.toNat ≤ range.2

/-- Whether `c` belongs to the seven-bit range, where no table is needed. -/
def isAscii (c : Char) : Bool := c.toNat < 0x80

/-- The characters with the white space property. -/
def blankTable : CharTable :=
  [(0x09, 0x0D), (0x20, 0x20), (0x85, 0x85), (0xA0, 0xA0), (0x1680, 0x1680), (0x2000, 0x200A),
   (0x2028, 0x2029), (0x202F, 0x202F), (0x205F, 0x205F), (0x3000, 0x3000)]

def isBlank (c : Char) : Bool := blankTable.contains c

def trim (cs : List Char) : List Char :=
  ((cs.dropWhile isBlank).reverse.dropWhile isBlank).reverse

/-! ### Pieces of a text -/

def occursIn (piece : List Char) : List Char → Bool
  | [] => piece.isEmpty
  | c :: cs => piece.isPrefixOf (c :: cs) || occursIn piece cs

/-- A piece occurs in a text exactly when the text is something, the piece, and something. -/
theorem occursIn_iff_isInfix {piece cs : List Char} : occursIn piece cs ↔ piece <:+: cs := by
  induction cs with
  | nil => simp [occursIn]
  | cons c cs ih => simp [occursIn, ih, List.infix_cons_iff]

/-- The text with every occurrence of `piece`, found from left to right, replaced. An empty piece
is never found. -/
def replaceAll (piece replacement : List Char) : List Char → List Char
  | [] => []
  | c :: cs =>
      if piece.isPrefixOf (c :: cs) && !piece.isEmpty then
        replacement ++ replaceAll piece replacement (cs.drop (piece.length - 1))
      else c :: replaceAll piece replacement cs
termination_by cs => cs.length
decreasing_by
  all_goals simp only [List.length_cons, List.length_drop]
  all_goals omega

/-! ### Sorted sets -/

/-- The texts, each once, in increasing order. They are compared code point by code point. -/
def sortedSet (texts : List String) : List String :=
  texts.eraseDups.mergeSort fun a b => !decide (b < a)

end ResourceLanguage.Text
