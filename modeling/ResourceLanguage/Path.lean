/-!
Paths as texts. Components are separated by slashes; empty components and inner `.` components
are passed over, a `.` in front counts.
-/

namespace ResourceLanguage

/-- A path, as it is written. -/
abbrev Path := String

namespace Path

inductive Component where
  | root
  | current
  | parent
  | name (text : String)
  deriving DecidableEq, Repr

/-- The pieces of a text between slashes. -/
def pieces : List Char → List (List Char)
  | [] => [[]]
  | c :: cs =>
      if c = '/' then [] :: pieces cs
      else
        match pieces cs with
        | [] => [[c]]
        | piece :: rest => (c :: piece) :: rest

/-- The component that a piece spells. `isFirst` says that nothing stands before it. -/
def Component.ofPiece? (isFirst : Bool) (piece : List Char) : Option Component :=
  match piece with
  | [] => none
  | ['.'] => if isFirst then some .current else none
  | ['.', '.'] => some .parent
  | piece => some (.name (String.ofList piece))

/-- The components of consecutive pieces, each with the number of characters up to its end. The
first piece begins after `start` characters. -/
def locate (start : Nat) : List (List Char) → List (Component × Nat)
  | [] => []
  | piece :: rest =>
      let stop := start + piece.length
      match Component.ofPiece? (start = 0) piece with
      | some component => (component, stop) :: locate (stop + 1) rest
      | none => locate (stop + 1) rest

/-- The components of a path, each with the number of characters up to its end. -/
def located (path : Path) : List (Component × Nat) :=
  match path.toList with
  | '/' :: cs => (.root, 1) :: locate 1 (pieces cs)
  | cs => locate 0 (pieces cs)

def components (path : Path) : List Component := path.located.map (·.1)

def isAbsolute (path : Path) : Bool := path.toList.head? == some '/'

/-- The path `inner`, taken from `outer`. -/
def join (outer inner : Path) : Path :=
  if inner.isAbsolute then inner
  else if outer.isEmpty || outer.toList.getLast? == some '/' then outer ++ inner
  else outer ++ "/" ++ inner

/-- The path without its last component. Neither the empty path nor the root has a parent. -/
def parent? (path : Path) : Option Path :=
  match path.located.reverse with
  | [] => none
  | (.root, _) :: _ => none
  | [_] => some ""
  | _ :: (_, stop) :: _ => some (String.ofList (path.toList.take stop))

/-- The path, its parent, the parent of that, and so on. -/
def ancestors (path : Path) : List Path :=
  let above := (path.located.reverse.drop 1).map fun (_, stop) =>
    String.ofList (path.toList.take stop)
  let top := if path.isEmpty || path.isAbsolute then [] else [""]
  path :: above ++ top

def fileName? (path : Path) : Option String :=
  match path.components.getLast? with
  | some (.name text) => some text
  | _ => none

/-- A file name cut at its last dot. A dot in front begins no extension. -/
def splitExtension (name : String) : String × Option String :=
  let reversed := name.toList.reverse
  let extension := reversed.takeWhile (· != '.')
  match reversed.dropWhile (· != '.') with
  | _ :: stem =>
      if stem.isEmpty then (name, none)
      else (String.ofList stem.reverse, some (String.ofList extension.reverse))
  | [] => (name, none)

def fileStem? (path : Path) : Option String :=
  path.fileName?.map fun name => (splitExtension name).1

def extension? (path : Path) : Option String :=
  path.fileName?.bind fun name => (splitExtension name).2

/-- Whether the components of `base` begin those of `path`. -/
def startsWith (path base : Path) : Bool := base.components.isPrefixOf path.components

def Component.rank : Component → Nat
  | .root => 0
  | .current => 1
  | .parent => 2
  | .name _ => 3

/-- The order of components: the root, `.`, `..`, and then names. -/
def Component.lt : Component → Component → Bool
  | .name a, .name b => a < b
  | a, b => a.rank < b.rank

/-- The order of lists of components: the first difference decides. -/
def componentsLe : List Component → List Component → Bool
  | [], _ => true
  | _ :: _, [] => false
  | a :: as, b :: bs => a.lt b || (a == b && componentsLe as bs)

def le (a b : Path) : Bool := componentsLe a.components b.components

end Path

end ResourceLanguage
