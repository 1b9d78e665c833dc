/-
FieldCheck.Text.Percent — percent-encoded texts.

In a run of ASCII characters `%` and two hexadecimal digits stand for a
byte; a `%` without two digits behind it stands for itself. The bytes of
each run are read as UTF-8 on their own, with U+FFFD for what is not UTF-8.
Characters beyond ASCII are kept and separate the runs.
-/
import FieldCheck.Text.Hex
import FieldCheck.Text.Utf8

namespace FieldCheck.Text.Percent

/-- The bytes that a run of ASCII characters stands for. -/
def bytes : List Char → List UInt8
  | '%' :: h :: l :: rest =>
    match hexValue h, hexValue l with
    | some x, some y => UInt8.ofNat (16 * x + y) :: bytes rest
    | _, _ => UInt8.ofNat '%'.toNat :: bytes (h :: l :: rest)
  | c :: rest => UInt8.ofNat c.toNat :: bytes rest
  | [] => []

/-- An ASCII character. -/
def isAscii (c : Char) : Bool := c.toNat < 0x80

/-- One run of characters that are all ASCII or all beyond it. -/
def decodeRun (run : List Char) : List Char :=
  if run.all isAscii then Utf8.decodeLossy (bytes run).toByteArray else run

/-- The text behind a percent-encoded one. -/
def decode (cs : List Char) : List Char :=
  (cs.splitBy fun a b => isAscii a == isAscii b).flatMap decodeRun

example : decode "a%20b%zz%4%41".toList = "a b%zz%4A".toList := by decide +kernel
example : decode "caf%C3%A9%E9".toList = "café\uFFFD".toList := by decide +kernel

end FieldCheck.Text.Percent
