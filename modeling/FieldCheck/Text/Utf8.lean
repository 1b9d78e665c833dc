/-
FieldCheck.Text.Utf8 — reading texts from bytes.

`Utf8.next` reads one character off the front of a window of up to four
bytes or says what is wrong there: a byte that starts nothing, a byte that
should continue the character and does not, or bytes that end too early.
Overlong forms, surrogates and code points beyond U+10FFFF are refused at
their second byte.

`decode` stops at the first fault and gives its place; `decodeLossy` writes
U+FFFD for each fault and goes on behind the faulty bytes. `decodeBlocks`
reads the same texts as `decode` (`decodeBlocks_eq_ok_iff`), but counts the
place of a fault from the start of what is decoded with it: bytes come in
blocks, and a character that a block cuts is decoded with the next one.
-/

namespace FieldCheck.Text.Utf8

/-! ## One character -/

/-- What can be wrong with bytes that should be UTF-8. -/
inductive Flaw where
  | start
  | continuation
  | truncated
  deriving DecidableEq, Repr

/-- The wording of a flaw. -/
def Flaw.message : Flaw → String
  | .start => "invalid start byte"
  | .continuation => "invalid continuation byte"
  | .truncated => "unexpected end of data"

/-- What stands at the front of a window: a character and how many bytes
follow its first one, or a flaw and how many bytes beyond the first belong
to it. -/
inductive Step where
  | char (c : Char) (more : Nat)
  | flawed (f : Flaw) (more : Nat)
  deriving DecidableEq, Repr

/-- A continuation byte. -/
def isTail (b : Nat) : Bool := 0x80 ≤ b && b < 0xC0

/-- The second bytes that may follow the first byte of a longer form. -/
def isSecond (lead b : Nat) : Bool :=
  isTail b && !(lead == 0xE0 && b < 0xA0) && !(lead == 0xED && 0xA0 ≤ b)
    && !(lead == 0xF0 && b < 0x90) && !(lead == 0xF4 && 0x90 ≤ b)

/-- Reads the front of a window: the first byte and up to three more. -/
def next (lead : Nat) (b1 b2 b3 : Option Nat) : Step :=
  if lead < 0x80 then .char (Char.ofNat lead) 0
  else if lead < 0xC2 then .flawed .start 0
  else if lead < 0xF5 then
    match b1 with
    | none => .flawed .truncated 0
    | some x =>
      if !isSecond lead x then .flawed .continuation 0
      else if lead < 0xE0 then .char (Char.ofNat ((lead - 0xC0) * 64 + (x - 0x80))) 1
      else match b2 with
        | none => .flawed .truncated 1
        | some y =>
          if !isTail y then .flawed .continuation 1
          else if lead < 0xF0 then
            .char (Char.ofNat ((lead - 0xE0) * 4096 + (x - 0x80) * 64 + (y - 0x80))) 2
          else match b3 with
            | none => .flawed .truncated 2
            | some z =>
              if !isTail z then .flawed .continuation 2
              else .char (Char.ofNat ((lead - 0xF0) * 262144 + (x - 0x80) * 4096
                + (y - 0x80) * 64 + (z - 0x80))) 3
  else .flawed .start 0

/-! ## Whole texts -/

/-- A flaw at its place: the first faulty byte, its index and how many more
bytes belong to the flaw. -/
structure Fault where
  flaw : Flaw
  byte : Nat
  index : Nat
  more : Nat
  deriving DecidableEq, Repr

/-- The byte at an index, as a number. -/
def byteAt (bytes : ByteArray) (i : Nat) : Option Nat := bytes[i]?.map UInt8.toNat

/-- The window of a byte sequence at an index. -/
@[inline] def nextAt (bytes : ByteArray) (i lead : Nat) : Step :=
  if lead < 0x80 then .char (Char.ofNat lead) 0
  else next lead (byteAt bytes (i + 1)) (byteAt bytes (i + 2)) (byteAt bytes (i + 3))

/-- Reads on from an index; `done` holds the characters so far, last first. -/
def decodeFrom (bytes : ByteArray) (i : Nat) (done : List Char) : Except Fault (List Char) :=
  if h : i < bytes.size then
    let lead := bytes[i].toNat
    match nextAt bytes i lead with
    | .char c more => decodeFrom bytes (i + 1 + more) (c :: done)
    | .flawed f more => .error ⟨f, lead, i, more⟩
  else .ok done.reverse
termination_by bytes.size - i

/-- The text that the bytes spell, or the first fault. -/
def decode (bytes : ByteArray) : Except Fault (List Char) := decodeFrom bytes 0 []

/-- Reads on from an index and puts U+FFFD for each fault. -/
def decodeLossyFrom (bytes : ByteArray) (i : Nat) (done : List Char) : List Char :=
  if h : i < bytes.size then
    match nextAt bytes i bytes[i].toNat with
    | .char c more => decodeLossyFrom bytes (i + 1 + more) (c :: done)
    | .flawed _ more => decodeLossyFrom bytes (i + 1 + more) ('\uFFFD' :: done)
  else done.reverse
termination_by bytes.size - i

/-- The text that the bytes spell, with U+FFFD for each fault. -/
def decodeLossy (bytes : ByteArray) : List Char := decodeLossyFrom bytes 0 []

/-! ## Blocks -/

/-- The byte at an index continues a character. -/
def isTailAt (bytes : ByteArray) (i : Nat) : Bool :=
  match byteAt bytes i with
  | some b => isTail b
  | none => false

/-- Where the character starts that the byte at an index belongs to. -/
def startOf (bytes : ByteArray) : Nat → Nat
  | 0 => 0
  | i + 1 => if isTailAt bytes (i + 1) then startOf bytes i else i + 1

/-- The faulty bytes are the front of a surrogate. -/
def Fault.isSurrogate (bytes : ByteArray) (f : Fault) : Bool :=
  f.flaw == .continuation && f.more == 0 && f.byte == 0xED && isTailAt bytes (f.index + 1)

/-- The index of the byte that settles a fault, if there has to be one. Two
bytes of a surrogate settle nothing yet, since a third may follow them. -/
def Fault.settledAt (bytes : ByteArray) (f : Fault) : Option Nat :=
  match f.flaw with
  | .start => some f.index
  | .continuation => some (f.index + if f.isSurrogate bytes then 2 else f.more + 1)
  | .truncated => none

/-- The faulty character is cut: what settles the fault is not in the block in which it starts. -/
def Fault.isCut (size : Nat) (bytes : ByteArray) (f : Fault) : Bool :=
  match f.settledAt bytes with
  | some i => bytes.size ≤ i || i / size != f.index / size
  | none => true

/-- The place of a fault in what is decoded with it: nothing if it is cut
itself, else the block with the character that is cut by its start. -/
def Fault.placeInBlock (size : Nat) (bytes : ByteArray) (f : Fault) : Nat :=
  if f.isCut size bytes || f.index % size = 0 then 0
  else f.index - startOf bytes (f.index / size * size)

/-- The text that the bytes spell, or the first fault, whose place is that in its block. -/
def decodeBlocks (size : Nat) (bytes : ByteArray) : Except Fault (List Char) :=
  match decode bytes with
  | .ok cs => .ok cs
  | .error f => .error { f with index := f.placeInBlock size bytes }

theorem decodeBlocks_eq_ok_iff (size : Nat) (bytes : ByteArray) (cs : List Char) :
    decodeBlocks size bytes = .ok cs ↔ decode bytes = .ok cs := by
  unfold decodeBlocks
  split <;> simp_all

end FieldCheck.Text.Utf8
