import Linkage.Failure

/-!
# The text of a settings document

A `Cursor` stands at a place of the text and knows its line and column. What follows on a line break
is the next line; a byte order mark has no width.
-/

namespace Linkage.Document

abbrev Fault := DocumentFault

/-! ### Characters -/

def isBreak (c : Char) : Bool := c == '\n' || c == '\x85' || c == '\u2028' || c == '\u2029'

/-- Line breaks count as one kind, but separators of lines and of paragraphs are kept. -/
def breakOf (c : Char) : Char := if c == '\x85' then '\n' else c

/-- A character that a document may hold. -/
def isReadable (c : Char) : Bool :=
  c == '\t' || c == '\n' || (' ' ≤ c && c ≤ '~') || c == '\x85' || ('\xa0' ≤ c && c ≤ '\uFFFD') ||
    '\uFFFF' < c

def isWord (c : Char) : Bool := c.isAlphanum || c == '-' || c == '_'

/-- Line ends of two characters, or of a carriage return alone, count as line breaks. -/
def withBreaks : List Char → List Char
  | '\r' :: '\n' :: r => '\n' :: withBreaks r
  | '\r' :: r => '\n' :: withBreaks r
  | c :: r => c :: withBreaks r
  | [] => []

/-! ### What is ahead -/

def isLineEnd : List Char → Bool
  | [] => true
  | c :: _ => isBreak c

def isEnd (cs : List Char) : Bool := isLineEnd cs || cs.head? == some ' '

def isGap (cs : List Char) : Bool := isEnd cs || cs.head? == some '\t'

/-- The text from here on, and where here is. -/
structure Cursor where
  rest : List Char
  index : Nat := 0
  line : Nat := 0
  column : Nat := 0
deriving Repr

namespace Cursor

def step (c : Cursor) : Cursor :=
  match c.rest with
  | [] => c
  | x :: r =>
    if isBreak x then ⟨r, c.index + 1, c.line + 1, 0⟩
    else ⟨r, c.index + 1, c.line, if x == '\uFEFF' then c.column else c.column + 1⟩

def skip : Nat → Cursor → Cursor
  | 0, c => c
  | n + 1, c => skip n c.step

/-- The characters ahead as long as they are accepted, and what comes after them. -/
def span (c : Cursor) (p : Char → Bool) : List Char × Cursor :=
  let cs := c.rest.takeWhile p
  (cs, c.skip cs.length)

def skipWhile (c : Cursor) (p : Char → Bool) : Cursor := (c.span p).2

/-- The line break ahead, if there is one, and what comes after it. -/
def lineBreak (c : Cursor) : List Char × Cursor :=
  match c.rest with
  | x :: _ => if isBreak x then ([breakOf x], c.step) else ([], c)
  | [] => ([], c)

/-- Whether one of the marks `---` and `...` stands at the start of a line, by itself. -/
def atMark (mark : List Char) (c : Cursor) : Bool :=
  c.column == 0 && c.rest.take 3 == mark && isGap (c.rest.drop 3)

def atDocumentMark (c : Cursor) : Bool :=
  c.atMark ['-', '-', '-'] || c.atMark ['.', '.', '.']

def skipComment (c : Cursor) : Cursor :=
  if c.rest.head? = some '#' then c.skipWhile (!isBreak ·) else c

/-- Past blanks and comments to the next token, and whether that is on a later line. -/
def toToken : (fuel : Nat) → Cursor → Bool → Cursor × Bool
  | 0, c, crossed => (c, crossed)
  | fuel + 1, c, crossed =>
    match (c.skipWhile (· == ' ')).skipComment.lineBreak with
    | ([], c) => (c, crossed)
    | (_, c) => toToken fuel c true

/-- Past the rest of a line that holds nothing but a comment. -/
def toNextLine (c : Cursor) : Except Fault Cursor :=
  let c := (c.skipWhile (· == ' ')).skipComment
  if isLineEnd c.rest then .ok c.lineBreak.2 else .error .lexical

end Cursor

end Linkage.Document
