import ResourceLanguage.Condition.Parser
import ResourceLanguage.Directive
import ResourceLanguage.Text.Line

/-!
Conditional compilation: the active code of a source file. Directive lines and the lines of
inactive sections are replaced by blanks of the same size, so that offsets and line numbers of
the active code are those of the file.
-/

namespace ResourceLanguage

open ResourceLanguage.Text

/-- An open conditional section. -/
structure Section where
  /-- The code around the section is active. -/
  enclosing : Bool
  /-- Some branch of the section has been selected already. -/
  taken : Bool
  /-- The current branch is selected. -/
  active : Bool
  deriving DecidableEq, Repr

namespace Section

/-- The section that `#if` opens. -/
def opened (enclosing holds : Bool) : Section :=
  { enclosing, taken := enclosing && holds, active := enclosing && holds }

def elif (s : Section) (holds : Bool) : Section :=
  let active := s.enclosing && !s.taken && holds
  { s with active, taken := s.taken || active }

def otherwise (s : Section) : Section :=
  { s with active := s.enclosing && !s.taken, taken := true }

end Section

/-- Where the pass over the lines of a file stands: the symbols defined so far, and the open
sections, innermost first. -/
structure PassState where
  symbols : Symbols
  sections : List Section
  deriving DecidableEq, Repr

namespace PassState

/-- The start of a file. -/
def initial (symbols : Symbols) : PassState := { symbols, sections := [] }

/-- Code outside every section is active. -/
def active (state : PassState) : Bool :=
  match state.sections with
  | [] => true
  | innermost :: _ => innermost.active

/-- Applies `f` to the innermost section. A directive outside every section has no effect. -/
def modifyInnermost (state : PassState) (f : Section → Section) : PassState :=
  match state.sections with
  | [] => state
  | innermost :: outer => { state with sections := f innermost :: outer }

/-- The state after a directive. Symbols change only in active code. -/
def next (state : PassState) : Directive → PassState
  | .ifCondition condition =>
      { state with
        sections :=
          .opened state.active (Condition.holds condition state.symbols) :: state.sections }
  | .elifCondition condition =>
      state.modifyInnermost fun s => s.elif (Condition.holds condition state.symbols)
  | .otherwise => state.modifyInnermost Section.otherwise
  | .endSection => { state with sections := state.sections.tail }
  | .define name =>
      if state.active then { state with symbols := state.symbols.define (String.ofList name) }
      else state
  | .undefine name =>
      if state.active then { state with symbols := state.symbols.undefine (String.ofList name) }
      else state
  | .other => state

def afterLine (state : PassState) (line : List Char) : PassState :=
  match Directive.ofLine? line with
  | some directive => state.next directive
  | none => state

/-- What a line becomes: a plain line of active code stays as it is. -/
def emit (state : PassState) (line : List Char) : List Char :=
  if (Directive.ofLine? line).isNone && state.active then line else blankLine line

/-- What the lines become, in order. -/
def emitAll (state : PassState) : List (List Char) → List (List Char)
  | [] => []
  | line :: lines => state.emit line :: (state.afterLine line).emitAll lines

def afterLines (state : PassState) (lines : List (List Char)) : PassState :=
  lines.foldl afterLine state

end PassState

def activeCode (code : List Char) (symbols : Symbols) : List Char :=
  ((PassState.initial symbols).emitAll (rawLines code)).flatten

def activeSource (code : String) (symbols : Symbols) : String :=
  String.ofList (activeCode code.toList symbols)

end ResourceLanguage
