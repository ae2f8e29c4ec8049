import ResourceLanguage.Config.Basic
import ResourceLanguage.Json.Value

/-!
Reading of configurations. A configuration is a JSON object whose fields may be missing, or an
array of the fields' values.
-/

namespace ResourceLanguage.Config

open ResourceLanguage.Json

inductive Field where
  | ignores
  | includes
  | ignoreFileSuffixes
  | sourceRoot
  | preprocessorSymbols
  deriving DecidableEq, Repr

namespace Field

def all : List Field :=
  [.ignores, .includes, .ignoreFileSuffixes, .sourceRoot, .preprocessorSymbols]

def name : Field → String
  | .ignores => "ignores"
  | .includes => "includes"
  | .ignoreFileSuffixes => "ignoreFileSuffixes"
  | .sourceRoot => "sourceRoot"
  | .preprocessorSymbols => "preprocessorSymbols"

def ofName? (name : String) : Option Field := all.find? (·.name == name)

end Field

/-- A configuration being read: the fields that have been set, and the values so far. -/
structure Draft where
  isSet : List Field := []
  config : Config := {}
  deriving DecidableEq, Repr

def readText (cs : List Char) : Reading String cs :=
  match h : skipBlanks cs with
  | [] => .error .incomplete
  | c :: rest =>
      if c = '"' then do
        let (text, last) ← readString true rest
        return (String.ofList text, .ofSkipBlanks h last)
      else .error (unfitValue c rest)

/-- Reads what is left of an array of strings. -/
def readElements (isFirst : Bool) (cs : List Char) : Reading (List String) cs :=
  match h : skipBlanks cs with
  | [] => .error .incomplete
  | c :: rest =>
      have hrest := length_lt_of_skipBlanks h
      if c = ']' then .ok ([], ⟨rest, hrest⟩)
      else if isFirst then do
        let (text, ⟨after, _⟩) ← readText cs
        let (texts, last) ← readElements false after
        return (text :: texts, ⟨last.1, by have := last.2; omega⟩)
      else if c = ',' then
        match skipBlanks rest with
        | ']' :: _ => .error .malformed
        | _ => do
            let (text, ⟨after, _⟩) ← readText rest
            let (texts, last) ← readElements false after
            return (text :: texts, ⟨last.1, by have := last.2; omega⟩)
      else .error .malformed
termination_by cs.length

def readTexts (cs : List Char) : Reading (List String) cs :=
  match h : skipBlanks cs with
  | [] => .error .incomplete
  | c :: rest =>
      if c = '[' then do
        let (texts, last) ← readElements true rest
        return (texts, .ofSkipBlanks h last)
      else .error (unfitValue c rest)

def readField (field : Field) (draft : Draft) (cs : List Char) : Reading Draft cs := do
  let set (config : Config) : Draft := { isSet := field :: draft.isSet, config }
  match field with
  | .ignores =>
      let (texts, rest) ← readTexts cs
      return (set { draft.config with ignores := texts }, rest)
  | .includes =>
      let (texts, rest) ← readTexts cs
      return (set { draft.config with includes := texts }, rest)
  | .ignoreFileSuffixes =>
      let (texts, rest) ← readTexts cs
      return (set { draft.config with ignoreFileSuffixes := texts }, rest)
  | .sourceRoot =>
      let (text, rest) ← readText cs
      return (set { draft.config with sourceRoot := text }, rest)
  | .preprocessorSymbols =>
      let (texts, rest) ← readTexts cs
      return (set { draft.config with preprocessorSymbols := texts }, rest)

/-- Reads a key after its opening quote, and its value. Unknown keys have no effect, and a known
one may not come again. -/
def readEntry (draft : Draft) (cs : List Char) : Reading Draft cs := do
  let (key, ⟨rest, _⟩) ← readString true cs
  let field? := Field.ofName? (String.ofList key)
  if field?.any (· ∈ draft.isSet) then .error .unfit
  else
    match h : skipBlanks rest with
    | [] => .error .incomplete
    | c :: value =>
        have := length_lt_of_skipBlanks h
        if c = ':' then
          match field? with
          | some field => do
              let (draft, last) ← readField field draft value
              return (draft, ⟨last.1, by have := last.2; omega⟩)
          | none => do
              let last ← skipValue value
              return (draft, ⟨last.1, by have := last.2; omega⟩)
        else .error .malformed

/-- Reads what is left of an object. -/
def readEntries (isFirst : Bool) (draft : Draft) (cs : List Char) : Reading Draft cs :=
  match h : skipBlanks cs with
  | [] => .error .incomplete
  | c :: rest =>
      have hrest := length_lt_of_skipBlanks h
      if c = '}' then .ok (draft, ⟨rest, hrest⟩)
      else if isFirst then
        if c = '"' then do
          let (draft, ⟨after, _⟩) ← readEntry draft rest
          let (draft, last) ← readEntries false draft after
          return (draft, ⟨last.1, by have := last.2; omega⟩)
        else .error .malformed
      else if c = ',' then
        match hkey : skipBlanks rest with
        | [] => .error .incomplete
        | d :: key =>
            have := length_lt_of_skipBlanks hkey
            if d = '"' then do
              let (draft, ⟨after, _⟩) ← readEntry draft key
              let (draft, last) ← readEntries false draft after
              return (draft, ⟨last.1, by have := last.2; omega⟩)
            else .error .malformed
      else .error .malformed
termination_by cs.length

/-- Reads what is left of an array of the fields' values. -/
def readValues (isFirst : Bool) (draft : Draft) (fields : List Field) (cs : List Char) :
    Except Fault (Draft × List Char) :=
  match skipBlanks cs with
  | [] => .error .incomplete
  | c :: rest =>
      if c = ']' then .ok (draft, rest)
      else
        match fields with
        | [] => .error .malformed
        | field :: fields =>
            if isFirst then do
              let (draft, last) ← readField field draft cs
              readValues false draft fields last.1
            else if c = ',' then
              match skipBlanks rest with
              | ']' :: _ => .error .malformed
              | _ => do
                  let (draft, last) ← readField field draft rest
                  readValues false draft fields last.1
            else .error .malformed

def parse (text : String) : Except Fault Config := do
  let finish (draft : Draft) (rest : List Char) : Except Fault Config :=
    if (skipBlanks rest).isEmpty then .ok draft.config else .error .malformed
  match skipBlanks text.toList with
  | [] => .error .incomplete
  | c :: rest =>
      if c = '{' then
        let (draft, last) ← readEntries true {} rest
        finish draft last.1
      else if c = '[' then
        let (draft, last) ← readValues true {} Field.all rest
        finish draft last
      else .error (unfitValue c rest)

end ResourceLanguage.Config
