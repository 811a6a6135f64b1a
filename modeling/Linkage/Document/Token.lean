import Linkage.Document.Property

/-!
# Tokens of a settings document

`Token.scan` cuts a text into tokens. Layout becomes tokens too: where a line is indented further
than the block around it a block opens, and where it is indented less the block closes. That a
scalar is a key shows only at the colon after it; until then it is `pending`, and the colon puts the
key mark, and with it perhaps the opening of a block, in front of it.

Where the text cannot be read further the tokens end in `fault`. What was pending then never comes
out, for it was still waiting for its colon.
-/

namespace Linkage.Document

inductive Token where
  | directive (d : Directive)
  | documentStart
  | documentEnd
  | openBlockMap
  | openBlockSeq
  | closeBlock
  | openMap
  | closeMap
  | openSeq
  | closeSeq
  | comma
  | dash
  | key
  | colon
  /-- Gives the value that follows a name. -/
  | naming (name : String)
  | named (name : String)
  | tag (handle : Option String) (suffix : String)
  | plain (s : String)
  | text (s : String)
  | finish
  /-- The text cannot be read further. -/
  | fault (f : Fault)
deriving Repr, DecidableEq, Inhabited

/-- A token that becomes a key if a colon follows on its line. -/
structure Pending where
  depth : Int
  /-- Its place among the tokens. -/
  place : Nat
  index : Nat
  line : Nat
  column : Nat
  required : Bool
deriving Repr

/-- How far the text has been cut, and what is known of the layout there. -/
structure Scanner where
  cursor : Cursor
  tokens : Array Token := #[]
  depth : Int := 0
  /-- The column of the innermost block. -/
  indent : Int := -1
  /-- The columns of the blocks around it. -/
  outer : List Int := []
  keyAllowed : Bool := true
  pending : List Pending := []
deriving Repr

namespace Scanner

/-- Some bracket is open, or one too many was closed. -/
def inner (s : Scanner) : Bool := s.depth != 0

def emit (s : Scanner) (t : Token) : Scanner := { s with tokens := s.tokens.push t }

/-- Blocks further in than a column are closed; brackets hold off all layout. -/
def unwind : (fuel : Nat) → Int → Scanner → Scanner
  | 0, _, s => s
  | fuel + 1, column, s =>
    if !s.inner ∧ column < s.indent then
      match s.outer with
      | i :: rest => unwind fuel column ({ s with indent := i, outer := rest }.emit .closeBlock)
      | [] => unwind fuel column ({ s with indent := -1 }.emit .closeBlock)
    else s

def unwindTo (s : Scanner) (column : Int) : Scanner := unwind (s.outer.length + 1) column s

/-- A block opens where its column is further in; says whether it does. -/
def indentTo (s : Scanner) (column : Int) : Scanner × Bool :=
  if s.indent < column then ({ s with indent := column, outer := s.indent :: s.outer }, true)
  else (s, false)

/-- What is pending and selected will be no key, which is a fault where it has to be one. -/
def dropPendingIf (s : Scanner) (p : Pending → Bool) : Except Fault Scanner :=
  if s.pending.any fun q => p q && q.required then .error .lexical
  else .ok { s with pending := s.pending.filter (!p ·) }

/-- A key ends on its line and is not too long. -/
def dropStale (s : Scanner) : Except Fault Scanner :=
  s.dropPendingIf fun p => p.line != s.cursor.line || s.cursor.index - p.index > 1024

/-- No key is pending at this depth any more. -/
def dropPending (s : Scanner) : Except Fault Scanner :=
  s.dropPendingIf fun p => p.depth == s.depth

def notePending (s : Scanner) : Except Fault Scanner :=
  if s.keyAllowed then do
    let required := !s.inner && s.indent == (s.cursor.column : Int)
    let s ← s.dropPending
    let p : Pending :=
      ⟨s.depth, s.tokens.size, s.cursor.index, s.cursor.line, s.cursor.column, required⟩
    return { s with pending := s.pending ++ [p] }
  else return s

def forward (s : Scanner) (n : Nat) : Scanner := { s with cursor := s.cursor.skip n }

/-- A mark of the whole document: every block is closed first. -/
def documentMark (s : Scanner) (t : Token) (n : Nat) : Except Fault Scanner := do
  let s ← (s.unwindTo (-1)).dropPending
  return (({ s with keyAllowed := false }).forward n).emit t

def openBracket (s : Scanner) (t : Token) : Except Fault Scanner := do
  let s ← s.notePending
  return (({ s with depth := s.depth + 1, keyAllowed := true }).forward 1).emit t

def closeBracket (s : Scanner) (t : Token) : Except Fault Scanner := do
  let s ← s.dropPending
  return (({ s with depth := s.depth - 1, keyAllowed := false }).forward 1).emit t

def comma (s : Scanner) : Except Fault Scanner := do
  let s ← ({ s with keyAllowed := true }).dropPending
  return (s.forward 1).emit .comma

def openBlock (s : Scanner) (t : Token) : Except Fault Scanner :=
  if s.inner then .ok s
  else if s.keyAllowed then
    let (s, opened) := s.indentTo s.cursor.column
    .ok (if opened then s.emit t else s)
  else .error .lexical

def dash (s : Scanner) : Except Fault Scanner := do
  let s ← s.openBlock .openBlockSeq
  let s ← ({ s with keyAllowed := true }).dropPending
  return (s.forward 1).emit .dash

def questionMark (s : Scanner) : Except Fault Scanner := do
  let s ← s.openBlock .openBlockMap
  let s ← ({ s with keyAllowed := !s.inner }).dropPending
  return (s.forward 1).emit .key

/-- A colon makes the pending token a key; without one, it stands for an empty key. -/
def colon (s : Scanner) : Except Fault Scanner :=
  match s.pending.find? fun p => p.depth == s.depth with
  | some p =>
    let s := { s with pending := s.pending.filter (·.depth != s.depth), keyAllowed := false }
    let s := { s with tokens := s.tokens.insertIdx! p.place .key }
    let (s, opened) := if s.inner then (s, false) else s.indentTo p.column
    let s := if opened then { s with tokens := s.tokens.insertIdx! p.place .openBlockMap } else s
    .ok ((s.forward 1).emit .colon)
  | none => do
    let s ← s.openBlock .openBlockMap
    let s ← ({ s with keyAllowed := !s.inner }).dropPending
    return (s.forward 1).emit .colon

/-- A scalar, or what stands in front of one, which may turn out to be a key. -/
def item (s : Scanner) (read : Cursor → Except Fault (Token × Cursor)) : Except Fault Scanner := do
  let s ← s.notePending
  let (t, c) ← read s.cursor
  return ({ s with keyAllowed := false, cursor := c }).emit t

def naming (s : Scanner) : Except Fault Scanner := s.item fun c => do
  let (name, c) ← nameFrom c.step
  return (.naming name, c)

def named (s : Scanner) : Except Fault Scanner := s.item fun c => do
  let (name, c) ← nameFrom c.step
  return (.named name, c)

def tag (s : Scanner) : Except Fault Scanner := s.item fun c => do
  let (handle, suffix, c) ← tagFrom c
  return (.tag handle suffix, c)

def quotedScalar (s : Scanner) (quote : Char) : Except Fault Scanner := s.item fun c => do
  let (text, c) ← quotedFrom quote (c.rest.length + 1) c.step []
  return (.text (String.ofList text), c)

def plainScalar (s : Scanner) : Except Fault Scanner := do
  let s ← s.notePending
  let (text, c, crossed) :=
    plainFrom s.inner (s.indent + 1) (s.cursor.rest.length + 1) s.cursor [] [] false
  return ({ s with keyAllowed := crossed, cursor := c }).emit (.plain (String.ofList text))

/-- An indented scalar is no key, and a key may follow it. -/
def indentedScalar (s : Scanner) (fold : Bool) : Except Fault Scanner := do
  let s ← ({ s with keyAllowed := true }).dropPending
  let (text, c) ← blockScalar fold s.indent s.cursor
  return ({ s with cursor := c }).emit (.text (String.ofList text))

def directive (s : Scanner) : Except Fault Scanner := do
  let s ← (s.unwindTo (-1)).dropPending
  let (d, c) ← directiveFrom s.cursor
  return ({ s with keyAllowed := false, cursor := c }).emit (.directive d)

def finish (s : Scanner) : Except Fault Scanner := do
  let s ← (s.unwindTo (-1)).dropPending
  return ({ s with keyAllowed := false, pending := [] }).emit .finish

def startsPlain (s : Scanner) : Bool :=
  match s.cursor.rest with
  | [] => false
  | x :: r =>
    !(isGap [x] || "-?:,[]\x7b\x7d#&*!|>'\"%@`".toList.contains x) ||
      (!isGap r && (x == '-' || (!s.inner && (x == '?' || x == ':'))))

def token (s : Scanner) : Except Fault Scanner :=
  let inner := s.inner
  match s.cursor.rest with
  | [] => s.finish
  | x :: r =>
    if x = '%' ∧ s.cursor.column = 0 then s.directive
    else if s.cursor.atMark ['-', '-', '-'] then s.documentMark .documentStart 3
    else if s.cursor.atMark ['.', '.', '.'] then s.documentMark .documentEnd 3
    else if x = '[' then s.openBracket .openSeq
    else if x = '{' then s.openBracket .openMap
    else if x = ']' then s.closeBracket .closeSeq
    else if x = '}' then s.closeBracket .closeMap
    else if x = ',' then s.comma
    else if x = '-' ∧ isGap r then s.dash
    else if x = '?' ∧ (inner ∨ isGap r) then s.questionMark
    else if x = ':' ∧ (inner ∨ isGap r) then s.colon
    else if x = '*' then s.named
    else if x = '&' then s.naming
    else if x = '!' then s.tag
    else if (x = '|' ∨ x = '>') ∧ !inner then s.indentedScalar (x = '>')
    else if x = '\'' ∨ x = '"' then s.quotedScalar x
    else if s.startsPlain then s.plainScalar
    else .error .lexical

def next (s : Scanner) : Except Fault Scanner := do
  let (c, crossed) := Cursor.toToken (s.cursor.rest.length + 1) s.cursor false
  let s := { s with cursor := c, keyAllowed := s.keyAllowed || (crossed && !s.inner) }
  let s ← s.dropStale
  let s ← (s.unwindTo s.cursor.column).token
  s.dropStale

/-- The tokens that come out before a fault: those before the first pending one. -/
def cut (s : Scanner) : Array Token :=
  s.tokens.take (s.pending.foldl (fun n p => min n p.place) s.tokens.size)

/-- All tokens; every round reads a character or finishes. -/
def run : (fuel : Nat) → Scanner → Array Token
  | 0, s => s.tokens
  | fuel + 1, s =>
    match s.next with
    | .error f => s.cut.push (.fault f)
    | .ok s => if s.tokens.back? = some .finish then s.tokens else run fuel s

end Scanner

/-- A byte order mark at the start is passed over. -/
def Token.scan (text : String) : List Token :=
  let cs := withBreaks text.toList
  if cs.all isReadable then
    let start : Cursor := ⟨cs, 0, 0, 0⟩
    let start := if cs.head? = some '\uFEFF' then start.step else start
    (Scanner.run (cs.length + 2) { cursor := start }).toList
  else [.fault .character]

end Linkage.Document
