import ResourceLanguage.ActiveCode

/-!
The lines of a source file read as nested groups, and what the groups mean. A group is `#if`, its
first branch, any number of further branches, and `#endif`; its meaning is that of the first branch
whose head selects it. Nothing here looks at a stack of open sections.

A text that ends inside groups leaves them open, so blocks and groups are indexed by whether all of
them are closed: an open group can only stand at the end.
-/

namespace ResourceLanguage

open ResourceLanguage.Text

namespace Directive

/-- The directives that make up groups. -/
def isConditional : Directive → Bool
  | .ifCondition _ | .elifCondition _ | .otherwise | .endSection => true
  | .define _ | .undefine _ | .other => false

/-- The directives that go on with a group or end it. -/
def needsGroup : Directive → Bool
  | .elifCondition _ | .otherwise | .endSection => true
  | .ifCondition _ | .define _ | .undefine _ | .other => false

end Directive

namespace Nesting

/-- A line that stands inside a branch: a plain line, or a directive that makes up no group. -/
def IsInner (line : List Char) : Prop :=
  ∀ directive, Directive.ofLine? line = some directive → directive.isConditional = false

/-- A line that goes on with a group or ends it. -/
def IsStray (line : List Char) : Prop :=
  ∃ directive, Directive.ofLine? line = some directive ∧ directive.needsGroup = true

/-- What begins a branch other than the first. -/
inductive Head where
  | elif (condition : List Char)
  | otherwise
  deriving DecidableEq, Repr

namespace Head

def directive : Head → Directive
  | .elif condition => .elifCondition condition
  | .otherwise => .otherwise

/-- Whether the head selects its branch, when no branch before it is selected. -/
def selects (symbols : Symbols) : Head → Bool
  | .elif condition => Condition.holds condition symbols
  | .otherwise => true

end Head

mutual

/-- Consecutive lines and groups. -/
inductive Block : Bool → Type where
  | nil : Block true
  | line {closed : Bool} (line : List Char) (inner : IsInner line) (rest : Block closed) :
      Block closed
  | group {closed : Bool} (opening condition : List Char)
      (opens : Directive.ofLine? opening = some (.ifCondition condition))
      (branches : Branches true) (rest : Block closed) : Block closed
  /-- A group in which the text ends. -/
  | unfinished (opening condition : List Char)
      (opens : Directive.ofLine? opening = some (.ifCondition condition))
      (branches : Branches false) : Block false

/-- The branches of a group from some branch on, without the head of that one. -/
inductive Branches : Bool → Type where
  | last (body : Block true) (closing : List Char)
      (closes : Directive.ofLine? closing = some .endSection) : Branches true
  | next {closed : Bool} (body : Block true) (line : List Char) (head : Head)
      (heads : Directive.ofLine? line = some head.directive) (rest : Branches closed) :
      Branches closed
  /-- A branch in which the text ends. -/
  | cut {closed : Bool} (body : Block closed) : Branches false

end

mutual

def Block.lines {closed : Bool} : Block closed → List (List Char)
  | .nil => []
  | .line line _ rest => line :: rest.lines
  | .group opening _ _ branches rest => opening :: branches.lines ++ rest.lines
  | .unfinished opening _ _ branches => opening :: branches.lines

def Branches.lines {closed : Bool} : Branches closed → List (List Char)
  | .last body closing _ => body.lines ++ [closing]
  | .next body line _ _ rest => body.lines ++ line :: rest.lines
  | .cut body => body.lines

end

/-- A plain line of active code stays as it is, a directive becomes blank. -/
def activeLine (line : List Char) : List Char :=
  if (Directive.ofLine? line).isNone then line else blankLine line

def symbolsAfter (symbols : Symbols) (line : List Char) : Symbols :=
  match Directive.ofLine? line with
  | some (.define name) => symbols.define (String.ofList name)
  | some (.undefine name) => symbols.undefine (String.ofList name)
  | _ => symbols

mutual

/-- The symbols after a block of active code. -/
def Block.after {closed : Bool} (symbols : Symbols) : Block closed → Symbols
  | .nil => symbols
  | .line line _ rest => rest.after (symbolsAfter symbols line)
  | .group _ condition _ branches rest =>
      rest.after (branches.after symbols (Condition.holds condition symbols))
  | .unfinished _ condition _ branches =>
      branches.after symbols (Condition.holds condition symbols)

/-- The symbols after the branches of a group in active code. `selected` says that the first of
them is selected; only the selected branch counts. -/
def Branches.after {closed : Bool} (symbols : Symbols) (selected : Bool) :
    Branches closed → Symbols
  | .last body _ _ => if selected then body.after symbols else symbols
  | .next body _ head _ rest =>
      if selected then body.after symbols else rest.after symbols (head.selects symbols)
  | .cut body => if selected then body.after symbols else symbols

end

mutual

/-- What the lines of a block of active code become. -/
def Block.text {closed : Bool} (symbols : Symbols) : Block closed → List (List Char)
  | .nil => []
  | .line line _ rest => activeLine line :: rest.text (symbolsAfter symbols line)
  | .group opening condition _ branches rest =>
      let selected := Condition.holds condition symbols
      blankLine opening :: branches.text symbols selected ++
        rest.text (branches.after symbols selected)
  | .unfinished opening condition _ branches =>
      blankLine opening :: branches.text symbols (Condition.holds condition symbols)

/-- What the lines of branches in active code become. The first branch that is selected is
active code, and all lines before it and after it become blank. -/
def Branches.text {closed : Bool} (symbols : Symbols) (selected : Bool) :
    Branches closed → List (List Char)
  | .last body closing _ =>
      (if selected then body.text symbols else body.lines.map blankLine) ++ [blankLine closing]
  | .next body line head _ rest =>
      if selected then body.text symbols ++ blankLine line :: rest.lines.map blankLine
      else
        body.lines.map blankLine ++ blankLine line :: rest.text symbols (head.selects symbols)
  | .cut body => if selected then body.text symbols else body.lines.map blankLine

end

/-- A source file: blocks, with lines between them that would go on with a group or end it while
there is none. -/
inductive File where
  | last {closed : Bool} (block : Block closed)
  | stray (block : Block true) (line : List Char) (stray : IsStray line) (rest : File)

namespace File

def lines : File → List (List Char)
  | .last block => block.lines
  | .stray block line _ rest => block.lines ++ line :: rest.lines

/-- What the lines of a file become. A stray directive becomes blank and has no effect. -/
def text (symbols : Symbols) : File → List (List Char)
  | .last block => block.text symbols
  | .stray block line _ rest =>
      block.text symbols ++ blankLine line :: rest.text (block.after symbols)

end File

end Nesting

end ResourceLanguage
