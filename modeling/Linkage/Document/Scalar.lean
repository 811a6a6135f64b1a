import Linkage.Document.Cursor

/-!
# Scalars

A scalar is written without quotes (`plainFrom`), in quotes (`quotedFrom`), or as an indented block
under its header (`blockScalar`). Over several lines its line breaks are folded: a single one counts
as a blank, and of several the first one is dropped.
-/

namespace Linkage.Document

/-- What blanks and line breaks inside a scalar stand for. -/
def folded (blanks : List Char) : (breaks : List Char) → List Char
  | [] => blanks
  | ['\n'] => [' ']
  | '\n' :: more => more
  | breaks => breaks

/-- The blanks and line breaks from here on: the blanks before the first break, the breaks, and
whether a document mark stops them. -/
def gap : (fuel : Nat) → Cursor → (blanks breaks : List Char) → (tabs : Bool) →
    Cursor × List Char × List Char × Bool
  | 0, c, blanks, breaks, _ => (c, blanks, breaks, false)
  | fuel + 1, c, blanks, breaks, tabs =>
    if !breaks.isEmpty && c.atDocumentMark then (c, blanks, breaks, true)
    else
      match c.rest with
      | x :: _ =>
        if x = ' ' ∨ (tabs = true ∧ x = '\t') then
          gap fuel c.step (if breaks.isEmpty then blanks ++ [x] else blanks) breaks tabs
        else if isBreak x then gap fuel c.step blanks (breaks ++ [breakOf x]) tabs
        else (c, blanks, breaks, false)
      | [] => (c, blanks, breaks, false)

/-! ### Without quotes -/

/-- The end of a scalar without quotes. Within brackets their marks end it too. -/
def endsPlain (inner : Bool) : List Char → Bool
  | [] => true
  | x :: r =>
    isGap [x] ||
      (x == ':' && (isGap r || (inner && r.head?.any (",[]\x7b\x7d".toList.contains ·)))) ||
      (inner && ",?[]\x7b\x7d".toList.contains x)

def chunk (inner : Bool) : List Char → List Char
  | [] => []
  | x :: r => if endsPlain inner (x :: r) then [] else x :: chunk inner r

/-- A scalar without quotes, over several lines as long as they are indented by `least`; says as
well whether line breaks follow it. -/
def plainFrom (inner : Bool) (least : Int) :
    (fuel : Nat) → Cursor → (text between : List Char) → Bool → List Char × Cursor × Bool
  | 0, c, text, _, crossed => (text, c, crossed)
  | fuel + 1, c, text, between, crossed =>
    if c.rest.head? = some '#' then (text, c, crossed)
    else
      match chunk inner c.rest with
      | [] => (text, c, crossed)
      | x :: more =>
        let text := text ++ between ++ x :: more
        let c := c.skip (more.length + 1)
        let (c, blanks, breaks, marked) := gap (c.rest.length + 1) c [] [] false
        let crossed := !breaks.isEmpty
        if marked || (blanks.isEmpty && !crossed) || (!inner && (c.column : Int) < least) then
          (text, c, crossed)
        else plainFrom inner least fuel c text (folded blanks breaks) crossed

/-! ### In quotes -/

/-- What an escape in double quotes stands for. -/
def escaped? : Char → Option Char
  | 'n' => some '\n'
  | 't' => some '\t'
  | '\t' => some '\t'
  | 'r' => some '\r'
  | '0' => some '\x00'
  | 'a' => some '\x07'
  | 'b' => some '\x08'
  | 'v' => some '\x0b'
  | 'f' => some '\x0c'
  | 'e' => some '\x1b'
  | ' ' => some ' '
  | '"' => some '"'
  | '/' => some '/'
  | '\\' => some '\\'
  | 'N' => some '\x85'
  | '_' => some '\xa0'
  | 'L' => some '\u2028'
  | 'P' => some '\u2029'
  | _ => none

/-- How many digits to base sixteen an escape by code point has. -/
def codeLength? : Char → Option Nat
  | 'x' => some 2
  | 'u' => some 4
  | 'U' => some 8
  | _ => none

def isHexDigit (c : Char) : Bool := c.isDigit || ('a' ≤ c && c ≤ 'f') || ('A' ≤ c && c ≤ 'F')

def digit (c : Char) : Nat :=
  if c.isDigit then c.toNat - '0'.toNat
  else if 'a' ≤ c ∧ c ≤ 'f' then c.toNat - 'a'.toNat + 10
  else c.toNat - 'A'.toNat + 10

def hexValue (cs : List Char) : Nat := cs.foldl (fun n c => 16 * n + digit c) 0

def coded (n : Nat) (cs : List Char) : Except Fault Char :=
  let ds := cs.take n
  if ds.length < n || !ds.all isHexDigit then .error .lexical
  else if 0x10FFFF < hexValue ds then .error .noSuchValue
  else .ok (Char.ofNat (hexValue ds))

/-- A scalar in quotes, from after its first quote on, up to its last one. -/
def quotedFrom (quote : Char) :
    (fuel : Nat) → Cursor → List Char → Except Fault (List Char × Cursor)
  | 0, _, _ => .error .lexical
  | fuel + 1, c, text =>
    match c.rest with
    | [] => .error .lexical
    | x :: r =>
      if x = quote then
        if quote = '\'' ∧ r.head? = some '\'' then quotedFrom quote fuel (c.skip 2) (text ++ [x])
        else .ok (text, c.step)
      else if x = '\\' ∧ quote = '"' then
        match r with
        | e :: ds =>
          if isBreak e then
            let (c, _, breaks, marked) := gap (c.rest.length + 1) (c.skip 2) [] [breakOf e] true
            if marked then .error .lexical else quotedFrom quote fuel c (text ++ breaks.drop 1)
          else
            match escaped? e, codeLength? e with
            | some y, _ => quotedFrom quote fuel (c.skip 2) (text ++ [y])
            | _, some n => do
              let y ← coded n ds
              quotedFrom quote fuel (c.skip (2 + n)) (text ++ [y])
            | _, _ => .error .lexical
        | [] => .error .lexical
      else if isGap [x] then
        let (c, blanks, breaks, marked) := gap (c.rest.length + 1) c [] [] true
        if marked then .error .lexical
        else quotedFrom quote fuel c (text ++ folded blanks breaks)
      else quotedFrom quote fuel c.step (text ++ [x])

/-! ### Blocks -/

/-- What becomes of the line breaks at the end of a block. -/
inductive Chomp where
  | strip
  | clip
  | keep
deriving Repr, DecidableEq

/-- The marks after the sign of a block, in either order: what becomes of the line breaks at its
end, and by how much it is indented. -/
def blockMarks (cs : List Char) : Except Fault (Chomp × Option Nat × List Char) := do
  let chomp : List Char → Chomp × List Char
    | '+' :: r => (.keep, r)
    | '-' :: r => (.strip, r)
    | r => (.clip, r)
  let width : List Char → Except Fault (Option Nat × List Char)
    | '0' :: _ => .error .lexical
    | d :: r => .ok (if d.isDigit then (some (digit d), r) else (none, d :: r))
    | [] => .ok (none, [])
  match chomp cs with
  | (.clip, _) => do
    let (n, r) ← width cs
    let (k, r) := if n.isSome then chomp r else (.clip, r)
    return (k, n, r)
  | (k, r) => do
    let (n, r) ← width r
    return (k, n, r)

/-- The line breaks from here on, and the greatest column reached on the way. -/
def leadingBreaks : (fuel : Nat) → Cursor → (breaks : List Char) → (column : Nat) →
    List Char × Nat × Cursor
  | 0, c, breaks, column => (breaks, column, c)
  | fuel + 1, c, breaks, column =>
    let c := c.skipWhile (· == ' ')
    let column := max column c.column
    match c.lineBreak with
    | ([], c) => (breaks, column, c)
    | (b, c) => leadingBreaks fuel c (breaks ++ b) column

def toColumn (column : Nat) (c : Cursor) : Cursor :=
  c.skip (min (column - c.column) (c.rest.takeWhile (· == ' ')).length)

/-- The line breaks between two lines of a block, and where the later one starts. -/
def breaksBetween (column : Nat) : (fuel : Nat) → Cursor → List Char → List Char × Cursor
  | 0, c, breaks => (breaks, c)
  | fuel + 1, c, breaks =>
    let c := toColumn column c
    match c.lineBreak with
    | ([], c) => (breaks, c)
    | (b, c) => breaksBetween column fuel c (breaks ++ b)

def atLine (column : Nat) (c : Cursor) : Bool := c.column == column && !c.rest.isEmpty

def startsBlank (c : Cursor) : Bool := c.rest.head?.any fun x => x == ' ' || x == '\t'

/-- The lines of a block from a column on, folded if so wanted: their text, the break after the last
one, and the breaks that follow it. -/
def blockLines (fold : Bool) (column : Nat) :
    (fuel : Nat) → Cursor → (text breaks last : List Char) →
      List Char × List Char × List Char × Cursor
  | 0, c, text, breaks, last => (text, last, breaks, c)
  | fuel + 1, c, text, breaks, last =>
    if atLine column c then
      let (line, d) := c.span (!isBreak ·)
      let text := text ++ breaks ++ line
      let (last, d) := d.lineBreak
      let (breaks, d) := breaksBetween column (d.rest.length + 1) d []
      let joint :=
        if !atLine column d then []
        else if fold && last == ['\n'] && !startsBlank c && !startsBlank d then
          if breaks.isEmpty then [' '] else []
        else last
      blockLines fold column fuel d (text ++ joint) breaks last
    else (text, last, breaks, c)

/-- A block from its sign on, in a block of settings at column `indent`. -/
def blockScalar (fold : Bool) (indent : Int) (c : Cursor) : Except Fault (List Char × Cursor) := do
  let (chomp, width, r) ← blockMarks (c.rest.drop 1)
  unless isEnd r do throw .lexical
  let c ← (c.skip (c.rest.length - r.length)).toNextLine
  let fuel := c.rest.length + 1
  let least := max 1 (indent + 1).toNat
  let (breaks, column, c) := match width with
    | some n =>
      let (breaks, c) := breaksBetween (least + n - 1) fuel c []
      (breaks, least + n - 1, c)
    | none =>
      let (breaks, column, c) := leadingBreaks fuel c [] 0
      (breaks, max least column, c)
  let (text, last, breaks, c) := blockLines fold column fuel c [] breaks []
  match chomp with
  | .strip => return (text, c)
  | .clip => return (text ++ last, c)
  | .keep => return (text ++ last ++ breaks, c)

end Linkage.Document
