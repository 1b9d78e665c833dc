/-
FieldCheck.Json.Reader — JSON values read from texts.

The reader takes one JSON value with blanks (space, tab, line feed, carriage
return) around it. Beyond the standard it knows `NaN`, `Infinity` and
`-Infinity`. A number without fraction and exponent is a whole number of any
size up to the limit on digits; all others are floating-point numbers. A
name that stands twice in an object keeps its first place and takes its last
value.

Texts are sequences of characters, and half of a surrogate pair is no character, so
texts with lone halves are left out. The standard lets a code `\uhhhh` stand for a half
without the other one. Such a code is not refused, but a stand-in, U+FFFD, takes its
place, and texts that differ in lone halves only are not told apart. What is proved of
a text that was read is therefore said of texts in which halves come in pairs. These are
the theorems on requests and on servers (`Proofs.Rpc`, `Proofs.Server`), on files of
records (`Proofs.Records`, `Proofs.Service.BatchFile`) and on JSON itself
(`Proofs.Json`). All others start from values or descriptors and read no JSON.

Scanners work on the characters that are left and return what they leave. A
complaint therefore knows how many characters were left where it arose, and
`place` turns that into a line, a column and an index for the message. The
fuel of the value scanners is twice the number of characters, more than any
text needs.
-/
import FieldCheck.Json
import FieldCheck.Number.Decimal
import FieldCheck.Text.Hex

namespace FieldCheck.Json

/-! ## Complaints -/

/-- What is wrong with a text that should be JSON. -/
inductive Complaint where
  | value
  | name
  | colon
  | comma
  | extra
  | unterminated
  | control
  | badEscape
  | badCode
  | byteOrderMark
  deriving DecidableEq, Repr

/-- The wording of a complaint. -/
def Complaint.message : Complaint → String
  | value => "Expecting value"
  | name => "Expecting property name enclosed in double quotes"
  | colon => "Expecting ':' delimiter"
  | comma => "Expecting ',' delimiter"
  | extra => "Extra data"
  | unterminated => "Unterminated string starting at"
  | control => "Invalid control character at"
  | badEscape => "Invalid \\escape"
  | badCode => "Invalid \\uXXXX escape"
  | byteOrderMark => "Unexpected UTF-8 BOM (decode using utf-8-sig)"

/-- Why a text could not be read: a complaint with the number of characters
that were left, or a whole number with too many digits. -/
inductive Refusal where
  | complaint (what : Complaint) (left : Nat)
  | digits (count : Nat)
  deriving DecidableEq, Repr

/-- What a scanner returns: a result and the characters that are left. -/
abbrev Scan (α : Type) := Except Refusal (α × List Char)

/-- A complaint where `rest` is left. -/
def complain {α : Type} (what : Complaint) (rest : List Char) : Except Refusal α :=
  .error (.complaint what rest.length)

/-! ## Blanks and numbers -/

/-- A character that may stand between tokens. -/
def isGap (c : Char) : Bool := c == ' ' || c == '\t' || c == '\n' || c == '\r'

/-- The text behind the blanks. -/
def skipGap (cs : List Char) : List Char := cs.dropWhile isGap

/-- The leading digits and what is behind them. -/
def spanDigits (cs : List Char) : List Char × List Char :=
  (cs.takeWhile Char.isDigit, cs.dropWhile Char.isDigit)

/-- The digits of the whole part: a zero alone, or digits that start with another one. -/
def scanWhole : List Char → Option (List Char × List Char)
  | '0' :: rest => some (['0'], rest)
  | c :: rest => if c.isDigit then some (spanDigits (c :: rest)) else none
  | [] => none

/-- The digits of a fraction, if a point with a digit behind it follows. -/
def scanFraction : List Char → List Char × List Char
  | '.' :: rest =>
    match spanDigits rest with
    | ([], _) => ([], '.' :: rest)
    | found => found
  | cs => ([], cs)

/-- The value of an exponent, if an exponent with a digit follows. -/
def scanExponent : List Char → Option Int × List Char
  | c :: rest =>
    if c = 'e' ∨ c = 'E' then
      let (negative, behind) := Decimal.splitSign rest
      match spanDigits behind with
      | ([], _) => (none, c :: rest)
      | (ds, left) => (some (Decimal.withSign negative (Decimal.value ds)), left)
    else (none, c :: rest)
  | [] => (none, [])

/-- A number whose sign is read already. -/
def scanMagnitude (negative : Bool) (cs : List Char) : Option (Scan Json) :=
  (scanWhole cs).map fun (whole, rest) =>
    let (fraction, rest) := scanFraction rest
    let (exponent, rest) := scanExponent rest
    if fraction.isEmpty && exponent.isNone then
      if whole.length ≤ Decimal.digitLimit then
        .ok (.int (Decimal.withSign negative (Decimal.value whole)), rest)
      else .error (.digits whole.length)
    else
      let coefficient := Decimal.value (whole ++ fraction)
      let scale := exponent.getD 0 - (fraction.length : Int)
      .ok (.float (.ofDecimal negative coefficient scale), rest)

/-- A number, where one starts. -/
def scanNumber : List Char → Option (Scan Json)
  | '-' :: rest => scanMagnitude true rest
  | cs => scanMagnitude false cs

/-! ## Texts -/

/-- The character that a letter behind a backslash stands for. -/
def unescape (c : Char) : Option Char :=
  if c = '"' then some '"'
  else if c = '\\' then some '\\'
  else if c = '/' then some '/'
  else if c = 'b' then some '\x08'
  else if c = 'f' then some '\x0c'
  else if c = 'n' then some '\n'
  else if c = 'r' then some '\r'
  else if c = 't' then some '\t'
  else none

/-- The number that four hexadecimal digits stand for. -/
def hexQuad (a b c d : Char) : Option Nat := do
  let w ← Text.hexValue a
  let x ← Text.hexValue b
  let y ← Text.hexValue c
  let z ← Text.hexValue d
  return ((w * 16 + x) * 16 + y) * 16 + z

/-- The first half of a pair. -/
def isHigh (n : Nat) : Bool := 0xD800 ≤ n && n < 0xDC00

/-- The second half of a pair. -/
def isLow (n : Nat) : Bool := 0xDC00 ≤ n && n < 0xE000

/-- The character of a pair. -/
def pairChar (high low : Nat) : Char :=
  Char.ofNat (0x10000 + (high - 0xD800) * 0x400 + (low - 0xDC00))

/-- The character of a code that is not paired. Half a pair is no character and has a
stand-in, with which the text is outside of what is modelled. -/
def codeChar (n : Nat) : Char := if isHigh n || isLow n then '\uFFFD' else Char.ofNat n

/-- What stands behind `\u`: a character and the rest. A first half is
joined with a second half right behind it; a code needs a character behind
its four digits. -/
def scanCode (cs : List Char) : Scan Char :=
  match cs with
  | a :: b :: c :: d :: e :: rest =>
    match hexQuad a b c d with
    | none => .error (.complaint .badCode (cs.length + 1))
    | some n =>
      if isHigh n then
        match e :: rest with
        | '\\' :: 'u' :: a' :: b' :: c' :: d' :: e' :: rest' =>
          match hexQuad a' b' c' d' with
          | none => .error (.complaint .badCode ((a' :: b' :: c' :: d' :: e' :: rest').length + 1))
          | some m =>
            if isLow m then .ok (pairChar n m, e' :: rest') else .ok (codeChar n, e :: rest)
        | _ => .ok (codeChar n, e :: rest)
      else .ok (codeChar n, e :: rest)
  | _ => .error (.complaint .badCode (cs.length + 1))

/-- The characters of a text up to its closing mark; `start` is the number
of characters left at its opening mark and `done` holds what is read, last
first. -/
def scanText (start : Nat) : Nat → List Char → List Char → Scan String
  | 0, _, _ => .error (.complaint .unterminated start)
  | _ + 1, _, [] => .error (.complaint .unterminated start)
  | fuel + 1, done, '"' :: rest => let _ := fuel; .ok (String.ofList done.reverse, rest)
  | fuel + 1, done, '\\' :: rest =>
    match rest with
    | [] => .error (.complaint .unterminated start)
    | 'u' :: behind =>
      match scanCode behind with
      | .error e => .error e
      | .ok (c, left) => scanText start fuel (c :: done) left
    | c :: behind =>
      match unescape c with
      | none => complain .badEscape ('\\' :: rest)
      | some d => scanText start fuel (d :: done) behind
  | fuel + 1, done, c :: rest =>
    if c.toNat < 0x20 then complain .control (c :: rest)
    else scanText start fuel (c :: done) rest

/-- A text whose opening mark is read already. -/
def readText (cs : List Char) : Scan String := scanText (cs.length + 1) (cs.length + 1) [] cs

/-! ## Values -/

/-- The value of a word that stands for itself, with its characters. -/
def words : List (List Char × Json) :=
  [("null".toList, .null), ("true".toList, .bool true), ("false".toList, .bool false),
   ("NaN".toList, .float .nan), ("Infinity".toList, .float (.infinite false)),
   ("-Infinity".toList, .float (.infinite true))]

/-- What is behind a word, where it stands. -/
def behindWord : List Char → List Char → Option (List Char)
  | [], cs => some cs
  | w :: ws, c :: cs => if w = c then behindWord ws cs else none
  | _ :: _, [] => none

/-- A word or a number. -/
def scanAtom (cs : List Char) : Scan Json :=
  match words.findSome? fun w => (behindWord w.1 cs).map fun rest => (w.2, rest) with
  | some found => .ok found
  | none =>
    match scanNumber cs with
    | some scanned => scanned
    | none => complain .value cs

mutual

/-- One value, with no blanks in front. -/
def scanValue : Nat → List Char → Scan Json
  | 0, cs => complain .value cs
  | fuel + 1, cs =>
    match cs with
    | '"' :: rest =>
      match readText rest with
      | .error e => .error e
      | .ok (s, left) => .ok (.text s, left)
    | '[' :: rest =>
      match skipGap rest with
      | ']' :: left => .ok (.array [], left)
      | inside => scanItems fuel [] inside
    | '\x7b' :: rest =>
      match skipGap rest with
      | '\x7d' :: left => .ok (.object [], left)
      | inside => scanMembers fuel [] inside
    | _ => scanAtom cs

/-- The items of an array from one item on; `done` holds the earlier ones, last first. -/
def scanItems : Nat → List Json → List Char → Scan Json
  | 0, _, cs => complain .value cs
  | fuel + 1, done, cs =>
    match scanValue fuel cs with
    | .error e => .error e
    | .ok (v, rest) =>
      match skipGap rest with
      | ']' :: left => .ok (.array (v :: done).reverse, left)
      | ',' :: left => scanItems fuel (v :: done) (skipGap left)
      | left => complain .comma left

/-- The members of an object from one member on; `done` holds the earlier ones. -/
def scanMembers : Nat → List (String × Json) → List Char → Scan Json
  | 0, _, cs => complain .name cs
  | fuel + 1, done, cs =>
    match cs with
    | '"' :: rest =>
      match readText rest with
      | .error e => .error e
      | .ok (n, behind) =>
        match skipGap behind with
        | ':' :: behind =>
          match scanValue fuel (skipGap behind) with
          | .error e => .error e
          | .ok (v, rest) =>
            match skipGap rest with
            | '\x7d' :: left => .ok (.object (put n v done), left)
            | ',' :: left => scanMembers fuel (put n v done) (skipGap left)
            | left => complain .comma left
        | left => complain .colon left
    | _ => complain .name cs

end

/-! ## Whole texts -/

/-- Enough fuel for a text. -/
def fuelFor (cs : List Char) : Nat := 2 * cs.length + 2

/-- The value that a whole text spells. -/
def scan (cs : List Char) : Except Refusal Json :=
  match cs with
  | '\uFEFF' :: _ => complain .byteOrderMark cs
  | _ =>
    match scanValue (fuelFor cs) (skipGap cs) with
    | .error e => .error e
    | .ok (v, rest) =>
      match skipGap rest with
      | [] => .ok v
      | left => complain .extra left

/-- The line and column, both from one on, of the place behind some characters. -/
def place (before : List Char) : Nat × Nat :=
  (before.count '\n' + 1, (before.reverse.takeWhile (· != '\n')).length + 1)

/-- The wording of a complaint about a text where `left` characters were left. -/
def complaintMessage (cs : List Char) (what : Complaint) (left : Nat) : String :=
  let index := cs.length - left
  let (line, column) := place (cs.take index)
  what.message ++ ": line " ++ Decimal.text line ++ " column " ++ Decimal.text column
    ++ " (char " ++ Decimal.text index ++ ")"

/-- The fault that a refusal of a text is. -/
def Refusal.fault (cs : List Char) : Refusal → Fault
  | .complaint what left => .notJson (complaintMessage cs what left)
  | .digits n => .tooLongToRead n

/-- The value that a text spells, or the fault in it. -/
def read (cs : List Char) : Except Fault Json :=
  match scan cs with
  | .ok v => .ok v
  | .error r => .error (r.fault cs)

end FieldCheck.Json
