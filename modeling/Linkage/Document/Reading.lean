import Linkage.Document.Token
import Linkage.Document.Tree

/-!
# Reading a document

`read` reads a text as the value of its one document. A text without a document says nothing. The
functions below follow the grammar of documents; each reads what it is named for from the tokens
that are left, and a token that may not stand there is a fault. Faults of the grammar show before
those of the values.
-/

namespace Linkage.Document

/-- What is left to be read, and what names and handles stand for there. -/
structure Source where
  tokens : List Token
  handles : List String := []
  /-- The values that have a name; a value that is still being read is not known yet. -/
  names : List (String × Option Tree) := []

abbrev Reading (α : Type) := StateT Source (Except Fault) α

/-- The next token. A text that cannot be read that far shows its fault. -/
def ahead : Reading Token := do
  match (← get).tokens with
  | .fault f :: _ => throw f
  | t :: _ => return t
  | [] => return .finish

def advance : Reading Unit := modify fun s => { s with tokens := s.tokens.drop 1 }

/-- Nothing if one of the stops is ahead, else what `item` reads. -/
def orNull (stops : List Token) (item : Reading Tree) : Reading Tree := do
  if (← ahead) ∈ stops then return .null else item

/-! ### In front of a value -/

def name? : Reading (Option String) := do
  match ← ahead with
  | .naming n => do
    advance
    return some n
  | _ => return none

def tag? : Reading (Option (Option String × String)) := do
  match ← ahead with
  | .tag handle suffix => do
    advance
    return some (handle, suffix)
  | _ => return none

/-- A name and a tag in either order, each of which may be missing. -/
def property : Reading (Option String × Kind) := do
  let name ← name?
  let tag ← tag?
  let name ← if name.isNone && tag.isSome then name? else pure name
  match tag with
  | some (handle, suffix) => return (name, ← Kind.ofTag (← get).handles handle suffix)
  | none => return (name, .any)

/-- What `item` reads is what the name stands for. No name is given twice. -/
def underName (name : Option String) (item : Reading Tree) : Reading Tree := do
  match name with
  | none => item
  | some n => do
    if (← get).names.any (·.1 == n) then throw .naming
    modify fun s => { s with names := (n, none) :: s.names }
    let t ← item
    modify fun s => { s with names := (n, some t) :: s.names }
    return t

def ofName (n : String) : Reading Tree := do
  match (← get).names.lookup n with
  | some (some t) => return t
  | some none => return .leaf (.fault .meaningless)
  | none => throw .naming

/-! ### Values -/

def afterComma (first : Bool) : Reading Unit := do
  unless first do
    if (← ahead) = .comma then advance else throw .grammar

def orMeaningless (kind : Kind) (core : String) (t : Tree) : Tree :=
  if kind.admits core then t else .leaf (.fault .meaningless)

mutual

/-- A value, or a name that stands for one. `block` allows blocks, and `dashes` a sequence that is
not indented. -/
def node : (fuel : Nat) → (block dashes : Bool) → Reading Tree
  | 0, _, _ => throw .grammar
  | fuel + 1, block, dashes => do
    match ← ahead with
    | .named n => do
      advance
      ofName n
    | _ => do
      let (name, kind) ← property
      underContent fuel block dashes name kind

/-- A value after its name and its tag. With one of them it may be left out. -/
def underContent : (fuel : Nat) → (block dashes : Bool) → Option String → Kind → Reading Tree
  | 0, _, _, _, _ => throw .grammar
  | fuel + 1, block, dashes, name, kind => do
    let scalar (inQuotes : Bool) (s : String) : Reading Tree :=
      underName name (return .leaf (.ofKind kind inQuotes s))
    match ← ahead with
    | .plain s => do
      advance
      scalar false s
    | .text s => do
      advance
      scalar true s
    | .openSeq => do
      advance
      orMeaningless kind "seq" <$> underName name (seqItems fuel true [])
    | .openMap => do
      advance
      orMeaningless kind "map" <$> underName name (mapItems fuel true [])
    | t =>
      if t = .dash ∧ dashes then
        orMeaningless kind "seq" <$> underName name (dashItems fuel [])
      else if t = .openBlockSeq ∧ block then do
        advance
        orMeaningless kind "seq" <$> underName name (blockSeq fuel [])
      else if t = .openBlockMap ∧ block then do
        advance
        orMeaningless kind "map" <$> underName name (blockMap fuel [])
      else if name.isSome ∨ kind ≠ .any then scalar false ""
      else throw .grammar

def blockSeq : (fuel : Nat) → List Tree → Reading Tree
  | 0, _ => throw .grammar
  | fuel + 1, items => do
    match ← ahead with
    | .dash => do
      advance
      let t ← orNull [.dash, .closeBlock] (node fuel true false)
      blockSeq fuel (items ++ [t])
    | .closeBlock => do
      advance
      return .seq items
    | _ => throw .grammar

/-- The items of a sequence in the column of the key above it. -/
def dashItems : (fuel : Nat) → List Tree → Reading Tree
  | 0, _ => throw .grammar
  | fuel + 1, items => do
    match ← ahead with
    | .dash => do
      advance
      let t ← orNull [.dash, .key, .colon, .closeBlock] (node fuel true false)
      dashItems fuel (items ++ [t])
    | _ => return .seq items

def blockMap : (fuel : Nat) → List (Tree × Tree) → Reading Tree
  | 0, _ => throw .grammar
  | fuel + 1, entries => do
    match ← ahead with
    | .key => do
      advance
      let k ← orNull [.key, .colon, .closeBlock] (node fuel true true)
      let v ← valueAfter fuel true [.key, .colon, .closeBlock]
      blockMap fuel (entries ++ [(k, v)])
    | .closeBlock => do
      advance
      return .ofEntries entries
    | _ => throw .grammar

/-- The value after a key, nothing where there is no colon. -/
def valueAfter : (fuel : Nat) → (block : Bool) → (stops : List Token) → Reading Tree
  | 0, _, _ => throw .grammar
  | fuel + 1, block, stops => do
    match ← ahead with
    | .colon => do
      advance
      orNull stops (node fuel block block)
    | _ => return .null

/-- The items of a sequence in brackets; before all but the first stands a comma. -/
def seqItems : (fuel : Nat) → (first : Bool) → List Tree → Reading Tree
  | 0, _, _ => throw .grammar
  | fuel + 1, first, items => do
    if (← ahead) ≠ .closeSeq then afterComma first
    match ← ahead with
    | .closeSeq => do
      advance
      return .seq items
    | .key => do
      advance
      let k ← orNull [.colon, .comma, .closeSeq] (node fuel false false)
      let v ← valueAfter fuel false [.comma, .closeSeq]
      seqItems fuel false (items ++ [.ofEntries [(k, v)]])
    | _ => do
      let t ← node fuel false false
      seqItems fuel false (items ++ [t])

def mapItems : (fuel : Nat) → (first : Bool) → List (Tree × Tree) → Reading Tree
  | 0, _, _ => throw .grammar
  | fuel + 1, first, entries => do
    if (← ahead) ≠ .closeMap then afterComma first
    match ← ahead with
    | .closeMap => do
      advance
      return .ofEntries entries
    | .key => do
      advance
      let k ← orNull [.colon, .comma, .closeMap] (node fuel false false)
      let v ← valueAfter fuel false [.comma, .closeMap]
      mapItems fuel false (entries ++ [(k, v)])
    | _ => do
      let k ← node fuel false false
      mapItems fuel false (entries ++ [(k, .null)])

end

/-! ### Documents -/

/-- The directives ahead: the version is given once and is a known one, and no handle is defined
twice. -/
def directives (versioned : Bool) (handles : List String) :
    List Token → Except Fault (List String × List Token)
  | .directive d :: ts =>
    match d with
    | .version major =>
      if versioned || major != 1 then .error .grammar else directives true handles ts
    | .handle h =>
      if h ∈ handles then .error .grammar else directives versioned (h :: handles) ts
    | .other => directives versioned handles ts
  | ts => .ok (handles, ts)

def startMark : Reading Unit := do
  let (handles, ts) ← directives false [] (← get).tokens
  set ({ tokens := ts, handles } : Source)
  if (← ahead) = .documentStart then advance else throw .grammar

def document (fuel : Nat) : Reading Tree := do
  match ← ahead with
  | .finish => return .null
  | .directive _ | .documentStart => do
    startMark
    match ← ahead with
    | .directive _ | .documentStart | .documentEnd | .finish => return .null
    | _ => node fuel true false
  | _ => node fuel true false

/-- After the document nothing may follow but marks of its end. -/
def nothingElse : Reading Unit := do
  modify fun s => { s with tokens := s.tokens.dropWhile (· == .documentEnd) }
  if (← ahead) ≠ .finish then
    startMark
    throw .second

def tree (text : String) : Except Fault Tree :=
  let ts := Token.scan text
  let whole : Reading Tree := do
    let t ← document (5 * ts.length + 5)
    nothingElse
    return t
  whole.run' { tokens := ts }

def read (text : String) : Except Fault (Value Float) := do
  let t ← tree text
  match t.faults with
  | f :: _ => throw f
  | [] => return t.value

end Linkage.Document
