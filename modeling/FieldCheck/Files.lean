/-
FieldCheck.Files — a tree of files and folders.

The tree is kept as a list of entries, each with the steps that lead to it
from the root. Following a path goes from folder to folder, one step at a
time, and can be stopped by a step that leads to nothing, by a file in the
middle of the path and by a name that is too long.

A file holds bytes, or a document: the value of a text in YAML, as the parser
gives it. How such texts are spelled is left out, and so is a text that is wrong in its
syntax. Bytes are for the contents that no parser gets to read, since they are no UTF-8
or hold a character that is not allowed, for the empty text, and for files of records,
which are in JSON. Other bytes have no document of their own: where one is wanted, they
are read as the one that holds nothing, as the empty text is.

Files and folders carry the time at which they were last changed.
-/
import FieldCheck.FilePath
import FieldCheck.Text.Lines
import FieldCheck.Text.Utf8
import FieldCheck.Value

namespace FieldCheck

/-! ## Contents -/

/-- What a file holds: a text in YAML, as the value that it is parsed to, or bytes. -/
inductive Content where
  | document (v : Value)
  | bytes (bs : ByteArray)

namespace Content

/-- Nothing at all. -/
def empty : Content := bytes ByteArray.empty

/-- Documents are read in blocks of this many bytes. -/
def blockSize : Nat := 8192

/-- A character that a document may hold. -/
def isDocumentChar (c : Char) : Bool :=
  let n := c.toNat
  n == 9 || n == 10 || n == 13 || (0x20 ≤ n && n ≤ 0x7E) || n == 0x85 || (0xA0 ≤ n && n ≤ 0xD7FF)
    || (0xE000 ≤ n && n ≤ 0xFFFD) || 0x10000 ≤ n

/-- The document that holds nothing, if the characters from an index on may be in a document.
They are not parsed: what a text in YAML stands for is given with `Content.document`. -/
def ofChars (source : String) (index : Nat) : List Char → Except Fault Value
  | [] => .ok .null
  | c :: cs =>
    if isDocumentChar c then ofChars source (index + 1) cs
    else .error (.specialCharacter source c.toNat index)

/-- The document that a content stands for. The text in it is prepared in some way. -/
def documentFrom (source : String) (prepare : List Char → List Char) : Content → Except Fault Value
  | document v => .ok v
  | bytes bs =>
    match Text.Utf8.decodeBlocks blockSize bs with
    | .ok cs => ofChars source 0 (prepare cs)
    | .error f => .error (.notUtf8 f)

/-- How a text is named that comes from no file. -/
def textSource : String := "<unicode string>"

/-- The document that a content stands for as a text. -/
def asDocument : Content → Except Fault Value := documentFrom textSource id

/-- The document in a file. Its line ends count as line feeds. -/
def inFile (path : String) : Content → Except Fault Value := documentFrom path Text.unified

/-- The bytes of a file. A document has none of its own. -/
def asBytes : Content → ByteArray
  | document _ => ByteArray.empty
  | bytes bs => bs

end Content

/-! ## The tree -/

/-- What a path can lead to. -/
inductive Entry where
  | folder (modified : Double)
  | file (content : Content) (modified : Double)

/-- When a file or a folder was last changed. -/
def Entry.modified : Entry → Double
  | folder t => t
  | file _ t => t

/-- A tree of files and folders. -/
structure Files where
  entries : List (List String × Entry)

namespace Files

/-- The tree with nothing but its root. -/
def empty : Files := ⟨[]⟩

/-- What stands at a place. The root is always a folder. -/
def entryAt (t : Files) (place : List String) : Option Entry :=
  if place.isEmpty then some (.folder .zero)
  else (t.entries.find? fun e => e.1 = place).map (·.2)

/-- Puts an entry at a place. -/
def put (t : Files) (place : List String) (e : Entry) : Files :=
  ⟨(place, e) :: t.entries.filter fun x => x.1 ≠ place⟩

/-- Makes the folders on the way to a place where there is nothing yet. -/
def withFolders (t : Files) (place : List String) (now : Double) : Files :=
  ((List.range place.length).map fun i => place.take (i + 1)).foldl
    (fun t p => if (t.entryAt p).isSome then t else t.put p (.folder now)) t

/-- Puts a folder at a place and makes those around it. -/
def putFolder (t : Files) (place : List String) (now : Double) : Files :=
  (t.withFolders place.dropLast now).put place (.folder now)

/-- Puts a file at a place and makes the folders around it. -/
def putFile (t : Files) (place : List String) (content : Content) (now : Double) : Files :=
  (t.withFolders place.dropLast now).put place (.file content now)

/-- Removes what stands at a place, with everything in it. -/
def remove (t : Files) (place : List String) : Files :=
  ⟨t.entries.filter fun x => !place.isPrefixOf x.1⟩

/-- The names of what is in a folder, in order. -/
def namesIn (t : Files) (place : List String) : List String :=
  ((t.entries.filter fun x => x.1.dropLast = place && x.1 ≠ []).filterMap fun x =>
    x.1.getLast?).mergeSort fun a b => !decide (b < a)

/-! ## Laws of single places -/

theorem entryAt_put_self (t : Files) {place : List String} (e : Entry) (h : place ≠ []) :
    (t.put place e).entryAt place = some e := by
  simp [put, entryAt, h]

theorem entryAt_put_of_ne (t : Files) {place other : List String} (e : Entry) (h : other ≠ place) :
    (t.put place e).entryAt other = t.entryAt other := by
  have same : (fun x : List String × Entry =>
      decide (decide (x.1 ≠ place) = true ∧ decide (x.1 = other) = true))
      = fun x => decide (x.1 = other) := by
    funext x
    by_cases hx : x.1 = other
    · simp [hx, h]
    · simp [hx]
  have h' : ¬ place = other := fun e => h e.symm
  unfold put entryAt
  split
  · rfl
  · simp only [List.find?_cons, h', decide_false, List.find?_filter, same]

/-! ## Following paths -/

/-- What can stop a path. -/
inductive Obstacle where
  | missing
  | throughFile
  | longName
  deriving DecidableEq, Repr

/-- The fault that an obstacle on a path is. -/
def Obstacle.fault (path : String) : Obstacle → Fault
  | missing => .noSuchFile path
  | throughFile => .notFolder path
  | longName => .nameTooLong path

/-- The greatest number of bytes in a name. -/
def nameLimit : Nat := 255

/-- The least number of bytes that is too many for a path. -/
def pathLimit : Nat := 4096

/-- The place that steps lead to from another one. -/
def walk (t : Files) : List String → List String → Except Obstacle (List String)
  | place, [] => .ok place
  | place, step :: rest =>
    match t.entryAt place with
    | none => .error .missing
    | some (.file ..) => .error .throughFile
    | some (.folder _) =>
      if step = "" ∨ step = "." then walk t place rest
      else if step = ".." then walk t place.dropLast rest
      else if nameLimit < step.utf8ByteSize then .error .longName
      else walk t (place ++ [step]) rest

/-- What a path leads to, seen from a working folder, if it leads to anything.
The path itself is bounded, and not what it is when the folder stands in front. -/
def lookupFrom (t : Files) (work path : String) : Except Obstacle Entry :=
  if pathLimit ≤ path.utf8ByteSize then .error .longName
  else
    match t.walk [] (FilePath.steps (FilePath.join work path)) with
    | .error o => .error o
    | .ok place =>
      match t.entryAt place with
      | some e => .ok e
      | none => .error .missing

/-- What a path that starts at the root leads to, if it leads to anything. -/
def lookup (t : Files) (path : String) : Except Obstacle Entry := t.lookupFrom "/" path

/-- The content of the file at a path, seen from a working folder. -/
def read (t : Files) (work path : String) : Except Fault Content :=
  if path.toList.contains '\x00' then .error .nullInPath
  else if path.isEmpty then .error (.noSuchFile path)
  else
    match t.lookupFrom work path with
    | .error o => .error (o.fault path)
    | .ok (.folder _) => .error (.isFolder path)
    | .ok (.file content _) => .ok content

end Files

end FieldCheck
