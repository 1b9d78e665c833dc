/-
FieldCheck.Uri — the parts of a location.

A location is read leniently, as browsers do: control characters and blanks
in front are ignored, and so are tabs and line ends anywhere. A scheme is a
letter and then letters, digits, `+`, `-` and `.` up to the first colon; it
is compared in lower case. Two slashes start a host. The path ends at the
first `#` or `?`. A text with none of these parts is a path.
-/
import FieldCheck.Uri.Host

namespace FieldCheck

/-- The parts of a location that are used. -/
structure Uri where
  scheme : String
  host : String
  path : String
  deriving DecidableEq, Repr

namespace Uri

/-! ## The scheme -/

/-- A character that is ignored in front of a location. -/
def isLeadingJunk (c : Char) : Bool := c.toNat ≤ 0x20

/-- A character that is ignored wherever it stands. -/
def isJunk (c : Char) : Bool := c == '\t' || c == '\n' || c == '\r'

/-- The characters that count. -/
def cleaned (cs : List Char) : List Char :=
  (cs.dropWhile isLeadingJunk).filter fun c => !isJunk c

/-- A character that a scheme may hold. -/
def isSchemeChar (c : Char) : Bool := c.isAlphanum || c == '+' || c == '-' || c == '.'

/-- A text that can be a scheme. -/
def isScheme (cs : List Char) : Bool :=
  match cs with
  | [] => false
  | c :: _ => c.isAlpha && cs.all isSchemeChar

/-- The scheme in lower case, which may be empty, and what is behind it. -/
def splitScheme (cs : List Char) : List Char × List Char :=
  let front := cs.takeWhile (· != ':')
  match cs.dropWhile (· != ':') with
  | _ :: rest => if isScheme front then (front.map Char.toLower, rest) else ([], cs)
  | [] => ([], cs)

/-! ## The host and the path -/

/-- A mark that ends the host. -/
def endsHost (c : Char) : Bool := c == '/' || c == '?' || c == '#'

/-- A mark that ends the path. -/
def endsPath (c : Char) : Bool := c == '?' || c == '#'

/-- The host, which may be empty, and what is behind it. -/
def splitHost : List Char → List Char × List Char
  | '/' :: '/' :: rest =>
    (rest.takeWhile fun c => !endsHost c, rest.dropWhile fun c => !endsHost c)
  | cs => ([], cs)

/-- The path in front of a query or a fragment. -/
def pathPart (cs : List Char) : List Char := cs.takeWhile fun c => !endsPath c

/-- The parts of a location. -/
def parse (location : String) : Except Fault Uri :=
  let (scheme, rest) := splitScheme (cleaned location.toList)
  let (host, rest) := splitHost rest
  (checkHost host).map fun _ =>
    ⟨String.ofList scheme, String.ofList host, String.ofList (pathPart rest)⟩

end Uri

end FieldCheck
