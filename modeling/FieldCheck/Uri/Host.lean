/-
FieldCheck.Uri.Host — the host part of a location.

The host part is a user in front of the last `@`, a name, and a port behind
a colon. Where it holds a square bracket it has to hold the other one, too,
and the name has to be an address of version 6, with an optional zone, or of
a later version. A name in brackets is the whole name: nothing stands in
front of it, and nothing but a port behind it.

Besides, characters that fold to one of the marks which delimit the parts of
a location are refused, because they would move the delimiters.
-/
import FieldCheck.Fault
import FieldCheck.Text.Hex

namespace FieldCheck.Uri

/-! ## Addresses of version 4 -/

/-- One of the four numbers of an address: up to 255, without leading zeros. -/
def isOctet (cs : List Char) : Bool :=
  !cs.isEmpty && cs.all Char.isDigit && cs.length ≤ 3 && (cs == ['0'] || cs.head? != some '0')
    && Decimal.value cs ≤ 255

/-- An address of version 4. -/
def isAddress4 (cs : List Char) : Bool :=
  let parts := cs.splitOn '.'
  parts.length == 4 && parts.all isOctet

/-! ## Addresses of version 6 -/

/-- One of the eight numbers of an address: one to four hexadecimal digits. -/
def isHextet (cs : List Char) : Bool :=
  !cs.isEmpty && cs.length ≤ 4 && cs.all fun c => (Text.hexValue c).isSome

/-- The parts of an address, where an address of version 4 at the end counts as two. -/
def hextets (cs : List Char) : Option (List (List Char)) :=
  let parts := cs.splitOn ':'
  let last := parts.getLastD []
  if parts.length < 3 then none
  else if last.contains '.' then
    if isAddress4 last then some (parts.dropLast ++ [['0'], ['0']]) else none
  else some parts

/-- The parts in front of a gap; only an empty part alone may stand there besides numbers. -/
def isLeading (parts : List (List Char)) : Bool := parts == [[]] || parts.all isHextet

/-- How many numbers a run of parts holds. -/
def count (parts : List (List Char)) : Nat := (parts.filter (!·.isEmpty)).length

/-- The parts of an address with a gap, which stands for at least one zero. -/
def isGapped (front back : List (List Char)) : Bool :=
  isLeading front && isLeading back && count front + count back < 8

/-- An address of version 6, without a zone: eight numbers, or fewer with one gap. -/
def isPlainAddress6 (cs : List Char) : Bool :=
  match hextets cs with
  | none => false
  | some [] => false
  | some (first :: rest) =>
    let inner := rest.takeWhile (!·.isEmpty)
    match rest.dropWhile (!·.isEmpty) with
    | _ :: last :: more => isGapped (first :: inner) (last :: more)
    | _ => (first :: rest).length == 8 && (first :: rest).all isHextet

/-- An address of version 6 with an optional zone behind a percent sign. -/
def isAddress6 (cs : List Char) : Bool :=
  let address := cs.takeWhile (· != '%')
  match cs.dropWhile (· != '%') with
  | [] => isPlainAddress6 address
  | _ :: zone => !zone.isEmpty && !zone.contains '%' && isPlainAddress6 address

/-! ## Hosts in brackets -/

/-- An address of a later version: `v`, hexadecimal digits, a point and more. -/
def isLaterAddress (cs : List Char) : Bool :=
  match cs with
  | 'v' :: rest =>
    let version := rest.takeWhile (· != '.')
    let behind := (rest.dropWhile (· != '.')).drop 1
    !version.isEmpty && version.all (fun c => (Text.hexValue c).isSome) && !behind.isEmpty
      && !behind.contains '\n'
  | _ => false

/-- What is wrong with a name that has to be an address. -/
def addressFlaw (cs : List Char) : Option String :=
  if cs.head? == some 'v' then
    if isLaterAddress cs then none else some "IPvFuture address is invalid"
  else if isAddress4 cs then some "An IPv4 address cannot be in brackets"
  else if isAddress6 cs then none
  else some (String.ofList (Text.quoteChars cs) ++ " does not appear to be an IPv4 or IPv6 address")

/-- What is said about brackets in the wrong places. -/
def bracketMessage : String := "Invalid IPv6 URL"

/-- The name and the port, without the user in front of the last `@`. -/
def withoutUser (host : List Char) : List Char := (host.reverse.takeWhile (· != '@')).reverse

/-- What is wrong with a name in brackets and what is behind the opening one. -/
def enclosedFlaw (cs : List Char) : Option String :=
  match cs.dropWhile (· != ']') with
  | _ :: c :: _ => if c = ':' then addressFlaw (cs.takeWhile (· != ']')) else some bracketMessage
  | _ => addressFlaw (cs.takeWhile (· != ']'))

/-- What is wrong with a name and a port, where the host holds brackets. -/
def nameFlaw (cs : List Char) : Option String :=
  match cs.dropWhile (· != '[') with
  | [] => addressFlaw (cs.takeWhile (· != ':'))
  | _ :: rest =>
    if (cs.takeWhile (· != '[')).isEmpty then enclosedFlaw rest else some bracketMessage

/-- What is wrong with the brackets of a host. -/
def bracketFlaw (host : List Char) : Option String :=
  match host.contains '[', host.contains ']' with
  | false, false => none
  | true, true => nameFlaw (withoutUser host)
  | _, _ => some bracketMessage

/-- A host without brackets may have any name. -/
theorem bracketFlaw_of_not_mem {host : List Char} (h1 : '[' ∉ host) (h2 : ']' ∉ host) :
    bracketFlaw host = none := by
  simp [bracketFlaw, h1, h2]

/-! ## Characters that fold to delimiters -/

/-- The characters beyond ASCII whose compatibility form holds one of the marks `/?#@:`. -/
def foldsToDelimiter : List Nat :=
  [0x2047, 0x2048, 0x2049, 0x2100, 0x2101, 0x2105, 0x2106, 0x2A74, 0xFE13, 0xFE16, 0xFE55,
   0xFE56, 0xFE5F, 0xFE6B, 0xFF03, 0xFF0F, 0xFF1A, 0xFF1F, 0xFF20]

/-- What is wrong with the characters of a host. -/
def foldingFlaw (host : List Char) : Option String :=
  if host.any fun c => foldsToDelimiter.contains c.toNat then
    some ("netloc '" ++ String.ofList host
      ++ "' contains invalid characters under NFKC normalization")
  else none

/-- Refuses a malformed host. -/
def checkHost (host : List Char) : Except Fault Unit :=
  match (bracketFlaw host).or (foldingFlaw host) with
  | none => .ok ()
  | some reason => .error (.malformedHost reason)

end FieldCheck.Uri
