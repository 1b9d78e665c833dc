/-
FieldCheck.Service.Batch — the same check for many records.

Each record is checked, named and reported on before the next one is looked
at. The name of a record is made of the values of some of its fields, as
they are shown, with hyphens between them; a record that has none of the
fields is unknown.
-/
import FieldCheck.Records
import FieldCheck.Service

namespace FieldCheck

/-- The result for one record of a batch. -/
structure BatchResult where
  recordId : String
  outcome : Outcome
  report : Report
  deriving DecidableEq, Repr

/-- The result for one record as a JSON value. -/
def BatchResult.toJson (r : BatchResult) : Json :=
  .object ([("record_id", .text r.recordId),
    ("missing_or_invalid", Json.texts r.outcome.labels)] ++ r.report.members)

namespace Service

/-! ## Names of records -/

/-- The name of a record that has none of the fields. -/
def unknownId : String := "unknown"

/-- The values of some fields that a dictionary has, as they are shown. -/
def idParts (entries : List (Value × Value)) : List Value → Except Fault (List String)
  | [] => .ok []
  | key :: rest =>
    match key.asKey with
    | .error f => .error f
    | .ok k =>
      match Value.lookup k entries with
      | none => idParts entries rest
      | some v =>
        match v.display with
        | .error f => .error f
        | .ok part => (idParts entries rest).map (part :: ·)

/-- The name that parts make. -/
def joinId (parts : List String) : String :=
  if parts.isEmpty then unknownId else "-".intercalate parts

/-- The name of a record. The fields are looked at only if it is a dictionary. -/
def recordId (fields record : Value) : Except Fault String :=
  match record with
  | .dict entries =>
    match fields.elements with
    | .error f => .error f
    | .ok keys => (idParts entries keys).map joinId
  | _ => .ok unknownId

/-! ## Batches -/

/-- The result for one record. -/
def batchOne (descriptors fields record : Value) : Action Service BatchResult := do
  let o ← check descriptors record
  let id ← Action.ofExcept (recordId fields record)
  let r ← report o
  pure ⟨id, o, r⟩

/-- The results for some records. -/
def batchList (records : List Value) (descriptors fields : Value) :
    Action Service (List BatchResult) :=
  Action.forEach (batchOne descriptors fields) records

/-- The results for the records that a value holds. -/
def batch (records descriptors fields : Value) : Action Service (List BatchResult) := do
  let rs ← Action.ofExcept records.elements
  batchList rs descriptors fields

/-- The results for the records at a location. -/
def batchFile (location descriptors fields : Value) : Action Service (List BatchResult) := do
  let rs ← Records.loadAt location
  batchList rs descriptors fields

/-- The results of a batch as a JSON value. -/
def resultsJson (rs : List BatchResult) : Json := .array (rs.map BatchResult.toJson)

end Service

end FieldCheck
