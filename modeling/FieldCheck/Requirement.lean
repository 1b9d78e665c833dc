/-
FieldCheck.Requirement — what a descriptor asks of a record.

A requirement names a path into nested dictionaries, a type for the value
found there, an optional bound on its length, and whether the value has to
be present. Besides, it keeps the type token as it was written and notes on
every part of the descriptor that was not understood; notes have no
influence on whether a record meets the requirement.
-/
import FieldCheck.FieldType
import FieldCheck.Json
import FieldCheck.Log
import FieldCheck.Text.Quoted

namespace FieldCheck

/-! ## Notes -/

/-- A part of a descriptor that was not understood. -/
inductive Note where
  /-- An opening parenthesis without a closing one. -/
  | unmatched
  /-- Parts of a constraint behind its length. -/
  | extraParts (parts : List String)
  /-- A type token that names no type. -/
  | unknownType (token : String)
  /-- A length that is no number. -/
  | invalidLength (token : String)
  deriving DecidableEq, Repr

/-- Texts in quotation marks in square brackets. -/
def quotedList (ss : List String) : String := "[" ++ ", ".intercalate (ss.map Text.quote) ++ "]"

/-- The wording of a note. -/
def Note.message : Note → String
  | unmatched => "unmatched '(' in descriptor, treated as part of the path"
  | extraParts parts => "extra '@' parts ignored: " ++ quotedList parts
  | unknownType token => "unrecognized type token " ++ Text.quote token ++ ", type check skipped"
  | invalidLength token => "invalid length " ++ Text.quote token ++ ", length check skipped"

/-! ## Requirements -/

/-- What a descriptor asks of a record. -/
structure Requirement where
  truthy : Bool
  type : FieldType
  maxLength : Option Int
  path : List String
  token : String
  notes : List Note
  deriving DecidableEq, Repr

namespace Requirement

/-- The bound as a JSON value. -/
def lengthJson : Option Int → Json
  | none => .null
  | some n => .int n

/-- The report on a requirement. -/
def toJson (r : Requirement) : Json :=
  .object [("require_truthy", .bool r.truthy), ("type", .text r.type.name),
    ("type_token", .text r.token), ("max_length", lengthJson r.maxLength),
    ("path", Json.texts r.path), ("diagnostics", Json.texts (r.notes.map Note.message))]

/-- The log record on a descriptor that was not understood in full. -/
def degradedRecord (descriptor : String) (r : Requirement) : LogRecord :=
  ⟨.debug, .descriptors, "Degraded parse of field descriptor " ++ Text.quote descriptor ++ ": "
    ++ "; ".intercalate (r.notes.map Note.message)⟩

/-- What is logged when a descriptor is read: nothing, unless there are notes. -/
def log (descriptor : String) (r : Requirement) : List LogRecord :=
  if r.notes.isEmpty then [] else [degradedRecord descriptor r]

theorem log_eq_nil_iff (descriptor : String) (r : Requirement) :
    log descriptor r = [] ↔ r.notes = [] := by
  unfold log
  split <;> simp_all

end Requirement

end FieldCheck
