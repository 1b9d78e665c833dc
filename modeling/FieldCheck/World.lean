/-
FieldCheck.World — what a service finds outside of itself.

The world has files, a clock, and a network in which every location gives a
fixed reply. It keeps a record of every request over the network and of
everything that was logged. Nothing but reading the clock, reading and
writing files, sending requests and logging is ever done to it.

A content that comes over the network comes in full. A stream that breaks off
while its chunks are read is left out.
-/
import FieldCheck.Files
import FieldCheck.Log

namespace FieldCheck

/-! ## The network -/

/-- What the network answers when a location is asked for. -/
inductive Reply where
  /-- No answer comes. -/
  | unreachable (message : String)
  /-- An answer comes, and it is an error. -/
  | refused (message : String)
  /-- A content comes, as a whole and in chunks. -/
  | content (whole : Content) (chunks : List ByteArray)

/-- A request over the network. -/
structure Call where
  url : String
  timeout : Nat
  stream : Bool
  closed : Bool
  chunkSize : Option Nat
  deriving DecidableEq, Repr

/-! ## The world -/

/-- The folders that a service knows: the one that it works in, the one that
its own files are in, and the one that it keeps fetched catalogs in. -/
structure Folders where
  work : String
  bundle : String
  cache : String
  deriving DecidableEq, Repr

/-- What is outside of a service. -/
structure World where
  folders : Folders
  files : Files
  web : List (String × Reply)
  clock : Double
  calls : List Call
  log : List LogRecord

namespace World

/-- The world after some records were logged. -/
def logged (w : World) (rs : List LogRecord) : World := { w with log := w.log ++ rs }

/-- The world after a request. -/
def called (w : World) (c : Call) : World := { w with calls := w.calls ++ [c] }

/-- What the network answers. -/
def reply (w : World) (url : String) : Reply :=
  match w.web.find? fun r => r.1 = url with
  | some r => r.2
  | none => .unreachable "unreachable"

/-- The content of a file. -/
def read (w : World) (path : String) : Except Fault Content := w.files.read w.folders.work path

/-- The document in a file. -/
def readDocument (w : World) (path : String) : Except Fault Value :=
  match w.read path with
  | .ok content => content.inFile path
  | .error f => .error f

/-- The world when a location gives another reply. -/
def withReply (w : World) (url : String) (r : Reply) : World :=
  { w with web := (url, r) :: w.web.filter fun x => x.1 ≠ url }

@[simp] theorem logged_nil (w : World) : w.logged [] = w := by simp [logged]

@[simp] theorem logged_logged (w : World) (a b : List LogRecord) :
    (w.logged a).logged b = w.logged (a ++ b) := by simp [logged]

end World

end FieldCheck
