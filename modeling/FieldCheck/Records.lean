/-
FieldCheck.Records — loading the records of a file.

Records are the items of a JSON array, or a single JSON value. They come
from a file, named by a location with the scheme `file`, or from the
network. The path of a file is collapsed before anything is read, so that it
cannot climb by encoded steps, and it has to name a regular file. What comes
from the network is bounded in size, and the response that brings it is closed
in the end, whatever happens before.

Whatever goes wrong is a fault of `recordsFailed` with its cause, except for
a malformed host and for a size above the bound.

Locations are texts. A byte string has the parts of a location, too, but no
scheme of a byte string is known; what counts as false is like an empty one,
and all else is no location.
-/
import FieldCheck.Action
import FieldCheck.Json.Reader
import FieldCheck.Text.Lines
import FieldCheck.Text.Percent
import FieldCheck.Uri
import FieldCheck.Value.Display

namespace FieldCheck.Records

/-! ## Reading -/

/-- The characters that bytes spell. -/
def charsOf (bytes : ByteArray) : Except Fault (List Char) :=
  match Text.Utf8.decode bytes with
  | .ok cs => .ok cs
  | .error f => .error (.notUtf8 f)

/-- The records that a JSON value holds. -/
def ofJson : Json → List Value
  | .array xs => xs.map Json.toValue
  | j => [j.toValue]

/-- The records that a text spells. -/
def ofChars (cs : List Char) : Except Fault (List Value) := (Json.read cs).map ofJson

/-! ## Files -/

/-- The bytes of the regular file at a path that is collapsed. -/
def fileBytes (t : Files) (path : String) : Except Fault ByteArray :=
  match t.lookup path with
  | .ok (.file content _) => .ok content.asBytes
  | .ok (.folder _) => .error (.notRegularFile path)
  | .error .longName => .error (.nameTooLong path)
  | .error _ => .error (.notRegularFile path)

/-- The records of a file. Its line ends count as line feeds. -/
def ofFile (w : World) (path : String) : Except Fault (List Value) :=
  if path.toList.contains '\x00' then .error .nullInPath
  else
    match fileBytes w.files (FilePath.resolved w.folders.work path) with
    | .error f => .error f
    | .ok bytes =>
      match charsOf bytes with
      | .error f => .error f
      | .ok cs => ofChars (Text.unified cs)

/-! ## The network -/

/-- The time limit of a request for records, in seconds. -/
def fetchTimeout : Nat := 30

/-- The number of bytes that are asked for at a time. -/
def chunkSize : Nat := 64 * 1024

/-- The greatest size of a remote file, in units of 2^20 bytes. -/
def sizeLimit : Nat := 50

/-- The greatest number of bytes of a remote file. -/
def byteLimit : Nat := sizeLimit * 1024 * 1024

/-- Chunks put together behind what is there already, up to the bound. -/
def gather (done : ByteArray) : List ByteArray → Except Fault ByteArray
  | [] => .ok done
  | chunk :: rest =>
    let bytes := done ++ chunk
    if byteLimit < bytes.size then .error (.remoteTooLarge sizeLimit) else gather bytes rest

/-! ## Responses -/

/-- What is done with a response: it is asked whether it is an error, its
content is read in pieces of at most some size, and it is closed. -/
inductive Use where
  | status
  | content (size : Nat)
  | close
  deriving DecidableEq, Repr

/-- The size of the pieces that a content is read in. -/
def Use.pieceSize? : Use → Option Nat
  | content size => some size
  | _ => none

/-- Work with a response: the result or the fault that it leads to, and what was
done with the response until then. -/
structure Usage (α : Type) where
  result : Except Fault α
  uses : List Use

namespace Usage

variable {α β : Type}

/-- One thing that is done with a response. -/
def step (use : Use) (result : Except Fault α) : Usage α := ⟨result, [use]⟩

/-- Goes on with the result, if there is one. -/
def andThen (x : Usage α) (f : α → Usage β) : Usage β :=
  match x.result with
  | .ok a => ⟨(f a).result, x.uses ++ (f a).uses⟩
  | .error e => ⟨.error e, x.uses⟩

/-- Closes the response in the end, whether there is a result or a fault. -/
def closing (x : Usage α) : Usage α := ⟨x.result, x.uses ++ [.close]⟩

end Usage

/-- Whether a reply is an error. -/
def statusOf : Reply → Except Fault Unit
  | .refused m => .error (.web m)
  | _ => .ok ()

/-- The chunks of a reply. -/
def chunksOf : Reply → List ByteArray
  | .content _ chunks => chunks
  | _ => []

/-- The work with a reply. Where no answer comes there is no response to work with. -/
def exchange (r : Reply) : Usage ByteArray :=
  match r with
  | .unreachable m => ⟨.error (.web m), []⟩
  | r => ((Usage.step .status (statusOf r)).andThen fun _ =>
      .step (.content chunkSize) (gather ByteArray.empty (chunksOf r))).closing

/-- The request that is recorded for a reply. -/
def callFor (uri : String) (r : Reply) : Call :=
  let uses := (exchange r).uses
  ⟨uri, fetchTimeout, true, uses.contains .close, uses.findSome? Use.pieceSize?⟩

/-- The bytes that a reply brings. -/
def replyBytes (r : Reply) : Except Fault ByteArray := (exchange r).result

@[simp] theorem replyBytes_content (whole : Content) (chunks : List ByteArray) :
    replyBytes (.content whole chunks) = gather ByteArray.empty chunks := rfl

/-- The records that a reply brings. -/
def ofReply (r : Reply) : Except Fault (List Value) :=
  match replyBytes r with
  | .error f => .error f
  | .ok bytes =>
    match charsOf bytes with
    | .error f => .error f
    | .ok cs => ofChars cs

/-! ## Locations -/

/-- A fault with the location in front, unless it is about the size. -/
def failure (uri : String) : Fault → Fault
  | .remoteTooLarge n => .remoteTooLarge n
  | f => .recordsFailed uri f

/-- The records at a location. -/
def load {σ : Type} (uri : String) : Action σ (List Value) := do
  let u ← Action.ofExcept (Uri.parse uri)
  let w ← Action.world
  if u.scheme = "file" then
    let path := String.ofList (Text.Percent.decode u.path.toList)
    Action.ofExcept ((ofFile w path).mapError (failure uri))
  else if u.scheme = "http" ∨ u.scheme = "https" then
    Action.changeWorld fun w => w.called (callFor uri (w.reply uri))
    Action.ofExcept ((ofReply (w.reply uri)).mapError (failure uri))
  else Action.fail (failure uri (.recordsScheme u.scheme))

/-! ## Values that are no texts -/

/-- The characters of a byte string, each byte by its code. -/
def byteChars (bs : List UInt8) : String := String.ofList (bs.map fun b => Char.ofNat b.toNat)

/-- The literal of the byte string with the characters of a text. -/
def bytesLiteral (s : String) : String := Value.quoted (.bytes s.toUTF8.toList)

/-- Why a byte string, which is shown in some way, is no location of records. -/
def schemeRefusal (shown s : String) : Fault :=
  match Uri.parse s with
  | .ok u => failure shown (.recordsScheme (bytesLiteral u.scheme))
  | .error f => f

/-- Why a value other than a text is no location of records. -/
def refusal (v : Value) : Fault :=
  match v with
  | .bytes bs => schemeRefusal v.quoted (byteChars bs)
  | _ => if v.truthy then .notLocation v.kind else schemeRefusal v.quoted ""

/-- The records at the location that a value is. -/
def loadAt {σ : Type} : Value → Action σ (List Value)
  | .text uri => load uri
  | v => Action.fail (refusal v)

end FieldCheck.Records
