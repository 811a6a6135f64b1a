/-!
# Files and directories

A tree of directories and text files, each known by the names on the way from the root. A path is
walked name by name: through a directory only, with `..` one step back. `exists?`, `write`,
`makeDir` and `makeDirs` are all that a log needs of it.
-/

namespace Linkage.Log

inductive Fault where
  | missing
  | notADirectory
  | isADirectory
  | alreadyExists
  | notStored
  | noSink
deriving Repr, DecidableEq

inductive Entry where
  | directory
  | file (text : String)
deriving Repr, DecidableEq

/-- The names from the root down. -/
abbrev Place := List String

structure Files where
  entries : List (Place × Entry) := []

namespace Files

/-- The root is always there. -/
def entry? (fs : Files) (p : Place) : Option Entry :=
  if p = [] then some .directory
  else (fs.entries.find? fun e => e.1 == p).map Prod.snd

def put (fs : Files) (p : Place) (e : Entry) : Files :=
  ⟨(p, e) :: fs.entries.filter (·.1 != p)⟩

/-- Where a path leads; its last name need not be there yet. -/
def walk (fs : Files) : Place → List String → Except Fault Place
  | p, [] => .ok p
  | p, name :: rest =>
    match fs.entry? p with
    | none => .error .missing
    | some (.file _) => .error .notADirectory
    | some .directory =>
      if name = "" ∨ name = "." then walk fs p rest
      else if name = ".." then walk fs p.dropLast rest
      else walk fs (p ++ [name]) rest

def locate (fs : Files) (path : String) : Except Fault Place :=
  fs.walk [] ((path.toList.splitOn '/').map String.ofList)

def exists? (fs : Files) (path : String) : Bool :=
  match fs.locate path with
  | .ok p => (fs.entry? p).isSome
  | .error _ => false

def textOf? (fs : Files) (path : String) : Option String :=
  match fs.locate path with
  | .ok p =>
    match fs.entry? p with
    | some (.file text) => some text
    | _ => none
  | .error _ => none

/-- The text of a file is changed; a file that is not there is made from an empty one. A path with a
slash at its end leads to a directory, whatever is there. -/
def edit (fs : Files) (path : String) (f : String → String) : Except Fault Files := do
  let names := path.toList.reverse.dropWhile (· == '/')
  let p ← fs.locate (String.ofList names.reverse)
  if names.length < path.length then throw .isADirectory
  match fs.entry? p with
  | some .directory => throw .isADirectory
  | some (.file text) => return fs.put p (.file (f text))
  | none => return fs.put p (.file (f ""))

def write (fs : Files) (path text : String) : Except Fault Files := fs.edit path fun _ => text

def append (fs : Files) (path text : String) : Except Fault Files := fs.edit path (· ++ text)

def makeDir (fs : Files) (path : String) : Except Fault Files := do
  let p ← fs.locate path
  if (fs.entry? p).isSome then throw .alreadyExists
  return fs.put p .directory

/-- A path before and after its last slash, without the slashes between. -/
def split (path : List Char) : List Char × List Char :=
  let tail := (path.reverse.takeWhile (· != '/')).reverse
  let head := path.take (path.length - tail.length)
  let bare := (head.reverse.dropWhile (· == '/')).reverse
  (if bare = [] then head else bare, tail)

/-- As `split`, but a slash at the end does not count. -/
def splitDir (path : List Char) : List Char × List Char :=
  let (head, tail) := split path
  if tail = [] then split head else (head, tail)

/-- Makes a directory and those above it that are missing. What was made before a fault stays. -/
def makeDirs : (fuel : Nat) → Files → List Char → Files × Except Fault Unit
  | 0, fs, _ => (fs, .error .missing)
  | fuel + 1, fs, path =>
    let (head, tail) := splitDir path
    let above := head ≠ [] ∧ tail ≠ [] ∧ !fs.exists? (String.ofList head)
    let (fs, r) := if above then makeDirs fuel fs head else (fs, .ok ())
    match r with
    | .error .alreadyExists | .ok () =>
      if above ∧ tail = ['.'] then (fs, .ok ())
      else
        match fs.makeDir (String.ofList path) with
        | .ok fs => (fs, .ok ())
        | .error e => (fs, .error e)
    | .error e => (fs, .error e)

def makeParent (fs : Files) (path : String) : Files × Except Fault Unit :=
  let dir := (split path.toList).1
  if dir = [] ∨ fs.exists? (String.ofList dir) then (fs, .ok ())
  else makeDirs (path.length + 1) fs dir

end Files

end Linkage.Log
