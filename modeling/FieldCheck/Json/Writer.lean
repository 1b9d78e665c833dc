/-
FieldCheck.Json.Writer — JSON values written on one line.

Items are separated by a comma and a blank, and a name from its value by a
colon and a blank. Texts are written in ASCII: the quotation mark, the
backslash and the control characters that have a letter take a backslash,
and every other character outside U+0020 to U+007E is written as `\uhhhh`,
above U+FFFF as a pair of such codes. Floating-point numbers have their
shortest form; those that are not numbers are written `NaN`, `Infinity` and
`-Infinity`.

`write` has a line for every value. `dump` is what a sender uses: it fails for a
value that holds a whole number beyond the limit on digits.
-/
import FieldCheck.Json
import FieldCheck.Number.Shortest
import FieldCheck.Text.Hex
import FieldCheck.Value.Display

namespace FieldCheck.Json

/-! ## Texts -/

/-- A sixteen-bit code behind a backslash. -/
def unicodeEscape (n : Nat) : List Char := '\\' :: 'u' :: Text.hexPadded 4 n

/-- One character of a text. -/
def escapeChar (c : Char) : List Char :=
  if c = '"' then ['\\', '"']
  else if c = '\\' then ['\\', '\\']
  else if c = '\n' then ['\\', 'n']
  else if c = '\r' then ['\\', 'r']
  else if c = '\t' then ['\\', 't']
  else if c = '\x08' then ['\\', 'b']
  else if c = '\x0c' then ['\\', 'f']
  else if 0x20 ≤ c.toNat ∧ c.toNat < 0x7F then [c]
  else if c.toNat < 0x10000 then unicodeEscape c.toNat
  else unicodeEscape (0xD800 + (c.toNat - 0x10000) / 0x400)
    ++ unicodeEscape (0xDC00 + (c.toNat - 0x10000) % 0x400)

/-- The characters of a text in quotation marks. -/
def writeText (s : String) : List Char := '"' :: s.toList.flatMap escapeChar ++ ['"']

/-! ## Values -/

/-- The characters of a floating-point number. -/
def writeFloat : Double → List Char
  | .nan => ['N', 'a', 'N']
  | .infinite s => Double.signed s "Infinity".toList
  | x => x.chars

/-- Parts separated by a comma and a blank. -/
def separated : List (List Char) → List Char
  | [] => []
  | [x] => x
  | x :: xs => x ++ ',' :: ' ' :: separated xs

mutual

/-- The characters of a JSON value. -/
def writeChars : Json → List Char
  | null => ['n', 'u', 'l', 'l']
  | bool true => ['t', 'r', 'u', 'e']
  | bool false => ['f', 'a', 'l', 's', 'e']
  | int n => Decimal.chars n
  | float x => writeFloat x
  | text s => writeText s
  | array xs => '[' :: separated (writeItems xs) ++ [']']
  | object ms => '\x7b' :: separated (writeMembers ms) ++ ['\x7d']

/-- The characters of each item of an array. -/
def writeItems : List Json → List (List Char)
  | [] => []
  | x :: xs => writeChars x :: writeItems xs

/-- The characters of each member of an object. -/
def writeMembers : List (String × Json) → List (List Char)
  | [] => []
  | (n, v) :: ms => (writeText n ++ ':' :: ' ' :: writeChars v) :: writeMembers ms

end

/-- A JSON value on one line. -/
def write (j : Json) : String := String.ofList (writeChars j)

/-- A JSON value on one line, unless it holds a number that is too long. -/
def dump (j : Json) : Except Fault String :=
  if j.toValue.isWritable then .ok j.write else .error .tooLongToWrite

end FieldCheck.Json
