/-
FieldCheck.Text.Quoted — texts and byte strings in quotation marks.

A quoted text stands between single quotation marks, or between double ones
when it holds a single mark and no double one. The mark itself and the
backslash take a backslash in front, line feed, carriage return and tab have
their letters, and every other unprintable character is written by its code:
`\xhh`, `\uhhhh` or `\Uhhhhhhhh`, the shortest that holds it.

Byte strings follow the same rules with a leading `b`; there every byte
outside the printable ASCII range is written `\xhh`.
-/
import FieldCheck.Text.Hex
import FieldCheck.Text.Printable

namespace FieldCheck.Text

/-! ## Marks and escapes -/

/-- The quotation mark that a text is written in. -/
def quoteMark (cs : List Char) : Char :=
  if cs.contains '\'' && !cs.contains '"' then '"' else '\''

/-- The code of a character behind a backslash. -/
def escapeCode (n : Nat) : List Char :=
  if n < 0x100 then '\\' :: 'x' :: hexPadded 2 n
  else if n < 0x10000 then '\\' :: 'u' :: hexPadded 4 n
  else '\\' :: 'U' :: hexPadded 8 n

/-- One character of a text that stands between the marks `mark`. -/
def escapeChar (mark c : Char) : List Char :=
  if c = mark ∨ c = '\\' then ['\\', c]
  else if c = '\n' then ['\\', 'n']
  else if c = '\r' then ['\\', 'r']
  else if c = '\t' then ['\\', 't']
  else if isPrintable c then [c]
  else escapeCode c.toNat

/-! ## Texts -/

/-- The characters of a text in quotation marks. -/
def quoteChars (cs : List Char) : List Char :=
  let mark := quoteMark cs
  mark :: cs.flatMap (escapeChar mark) ++ [mark]

/-- A text in quotation marks. -/
def quote (s : String) : String := String.ofList (quoteChars s.toList)

/-! ## Byte strings -/

/-- One byte of a byte string that stands between the marks `mark`. -/
def escapeByte (mark : Char) (b : UInt8) : List Char :=
  let c := Char.ofNat b.toNat
  if 0x20 ≤ b.toNat ∧ b.toNat < 0x7F ∨ c = '\n' ∨ c = '\r' ∨ c = '\t' then escapeChar mark c
  else escapeCode b.toNat

/-- A byte string in quotation marks. -/
def quoteBytes (bs : List UInt8) : String :=
  let mark := quoteMark (bs.map fun b => Char.ofNat b.toNat)
  String.ofList ('b' :: mark :: bs.flatMap (escapeByte mark) ++ [mark])

end FieldCheck.Text
