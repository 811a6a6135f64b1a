import Linkage.Document.Scalar

/-!
# Names, tags and directives

What may stand in front of a value: a name to refer to it by, and a tag that says what kind of value
it is. Directives stand in front of a document; one of them gives a short form, a handle, for the
beginning of tags. Two handles are there from the start: a single exclamation mark, and two of them
for the core kinds of value.
-/

namespace Linkage.Document

/-- What a directive says. -/
inductive Directive where
  /-- The first number of the version that the document is written in. -/
  | version (major : Nat)
  | handle (handle : String)
  | other
deriving Repr, DecidableEq, Inhabited

def nameFrom (c : Cursor) : Except Fault (String × Cursor) :=
  let (w, c) := c.span isWord
  if w.isEmpty || !(isGap c.rest || c.rest.head?.any ("?:,]\x7d%@`".toList.contains ·)) then
    .error .lexical
  else .ok (String.ofList w, c)

/-! ### Tags -/

/-- Octets, each written as a percent sign and two digits. -/
def octetsFrom : (fuel : Nat) → Cursor → List UInt8 → Except Fault (List UInt8 × Cursor)
  | 0, c, bytes => .ok (bytes, c)
  | fuel + 1, c, bytes =>
    match c.rest with
    | '%' :: r =>
      let ds := r.take 2
      if ds.length = 2 ∧ ds.all isHexDigit then
        octetsFrom fuel (c.skip 3) (bytes ++ [(hexValue ds).toUInt8])
      else .error .lexical
    | _ => .ok (bytes, c)

def isUriChar (c : Char) : Bool := isWord c || ";/?:@&=+$,.!~*'()[]".toList.contains c

def uriChars : (fuel : Nat) → Cursor → List Char → Except Fault (List Char × Cursor)
  | 0, c, text => .ok (text, c)
  | fuel + 1, c, text =>
    match c.rest with
    | [] => .ok (text, c)
    | x :: _ =>
      if x = '%' then do
        let (bytes, c) ← octetsFrom c.rest.length c []
        match String.fromUTF8? ⟨bytes.toArray⟩ with
        | some s => uriChars fuel c (text ++ s.toList)
        | none => throw .lexical
      else if isUriChar x then uriChars fuel c.step (text ++ [x])
      else .ok (text, c)

def uriFrom (c : Cursor) : Except Fault (String × Cursor) := do
  let (text, c) ← uriChars (c.rest.length + 1) c []
  if text.isEmpty then throw .lexical
  return (String.ofList text, c)

/-- An exclamation mark by itself, or a word between two of them. -/
def handleFrom (c : Cursor) : Except Fault (String × Cursor) :=
  match c.rest with
  | '!' :: ' ' :: _ => .ok ("!", c.step)
  | '!' :: _ =>
    let (w, d) := c.step.span isWord
    if d.rest.head? = some '!' then .ok ("!" ++ String.ofList w ++ "!", d.step)
    else .error .lexical
  | _ => .error .lexical

/-- A tag from its first exclamation mark on: its handle, if it has one, and the rest of it. -/
def tagFrom (c : Cursor) : Except Fault (Option String × String × Cursor) := do
  let next := c.rest.drop 1
  let (handle, suffix, c) ←
    if next.head? = some '<' then do
      let (uri, c) ← uriFrom (c.skip 2)
      if c.rest.head? ≠ some '>' then throw .lexical
      pure (none, uri, c.step)
    else if isGap next then pure (none, "!", c.step)
    else do
      let (handle, c) ←
        if (next.takeWhile fun x => !isEnd [x]).contains '!' then handleFrom c
        else pure ("!", c.step)
      let (uri, c) ← uriFrom c
      pure (some handle, uri, c)
  unless isEnd c.rest do throw .lexical
  return (handle, suffix, c)

inductive Kind where
  /-- There is no tag. -/
  | any
  /-- Whatever the form says, even in quotes. -/
  | form
  | core (name : String)
  | foreign
deriving Repr, DecidableEq, Inhabited

namespace Kind

/-- The kind that a tag asks for where directives define certain handles. -/
def ofTag (defined : List String) : Option String → (suffix : String) → Except Fault Kind
  | none, suffix => .ok (if suffix = "!" then .form else .foreign)
  | some handle, suffix =>
    if handle ∈ defined then .ok .foreign
    else if handle = "!!" then .ok (.core suffix)
    else if handle = "!" then .ok .foreign
    else .error .grammar

/-- Whether a value of a core kind is asked for or will do. -/
def admits (core : String) : Kind → Bool
  | any | form => true
  | .core name => name == core
  | foreign => false

end Kind

/-! ### Directives -/

def numberFrom (c : Cursor) : Except Fault (Nat × Cursor) :=
  let (ds, c) := c.span Char.isDigit
  if ds.isEmpty then .error .lexical else .ok (ds.foldl (fun n d => 10 * n + digit d) 0, c)

/-- A version has two numbers with a point between them. -/
def versionFrom (c : Cursor) : Except Fault (Directive × Cursor) := do
  let (major, c) ← numberFrom (c.skipWhile (· == ' '))
  if c.rest.head? ≠ some '.' then throw .lexical
  let (_, c) ← numberFrom c.step
  unless isEnd c.rest do throw .lexical
  return (.version major, c)

def shortFormFrom (c : Cursor) : Except Fault (Directive × Cursor) := do
  let (handle, c) ← handleFrom (c.skipWhile (· == ' '))
  if c.rest.head? ≠ some ' ' then throw .lexical
  let (_, c) ← uriFrom (c.skipWhile (· == ' '))
  unless isEnd c.rest do throw .lexical
  return (.handle handle, c)

/-- A directive from its percent sign on, with the line break after it. -/
def directiveFrom (c : Cursor) : Except Fault (Directive × Cursor) := do
  let (w, c) := c.step.span isWord
  if w.isEmpty || !isEnd c.rest then throw .lexical
  let (d, c) ←
    match String.ofList w with
    | "YAML" => versionFrom c
    | "TAG" => shortFormFrom c
    | _ => pure (.other, c.skipWhile (!isBreak ·))
  return (d, ← c.toNextLine)

end Linkage.Document
