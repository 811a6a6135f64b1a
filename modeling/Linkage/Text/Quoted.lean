import Linkage.Text.Unmarked

/-!
# Quoted text

`quoted s` writes a text between quotes so that it can be told where it begins and ends: single
quotes, or double ones around a text that holds single quotes only. The quote in use and the
backslash are escaped, and so are characters that leave no mark.
-/

namespace Linkage.Text

/-- The digits of `n` to base sixteen, at least `width` of them. -/
def hex (width n : Nat) : List Char :=
  let ds := Nat.toDigits 16 n
  List.replicate (width - ds.length) '0' ++ ds

/-- A code point in the shortest of the three forms of an escape. -/
def escapeCode (n : Nat) : List Char :=
  if n < 0x100 then '\\' :: 'x' :: hex 2 n
  else if n < 0x10000 then '\\' :: 'u' :: hex 4 n
  else '\\' :: 'U' :: hex 8 n

def escape (quote c : Char) : List Char :=
  if c = quote ∨ c = '\\' then ['\\', c]
  else if c = '\n' then ['\\', 'n']
  else if c = '\r' then ['\\', 'r']
  else if c = '\t' then ['\\', 't']
  else if leavesMark c then [c]
  else escapeCode c.toNat

/-- The quote that a text is written in. -/
def quoteFor (cs : List Char) : Char := if '\'' ∈ cs ∧ '"' ∉ cs then '"' else '\''

def quoted (s : String) : String :=
  let q := quoteFor s.toList
  String.ofList (q :: s.toList.flatMap (escape q) ++ [q])

end Linkage.Text
