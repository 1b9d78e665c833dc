/-
FieldCheck.Outcome — the outcome of a check and the report on it.

An outcome is the list of the labels of all items that failed, in order. It
is good exactly when the list is empty, even if a label is the empty text.
The report on a good outcome has nothing to say; the report on any other one
is a message followed by the labels.
-/
import FieldCheck.Json
import FieldCheck.Requirement
import FieldCheck.Value.Display

namespace FieldCheck

/-! ## Reports -/

/-- The report on an outcome. -/
inductive Report where
  | ok
  | error (text : String)
  deriving DecidableEq, Repr

/-- The members of a report. -/
def Report.members : Report → List (String × Json)
  | ok => [("status", .text "ok")]
  | error t => [("status", .text "error"), ("text", .text t)]

/-- A report as a JSON value. -/
def Report.toJson (r : Report) : Json := .object r.members

/-- What is between two labels. -/
def labelSeparator : String := ", "

/-- A message in front of a text. The message has to be a text, too. -/
def putInFront : Value → String → Except Fault String
  | .text message, s => .ok (message ++ s)
  | v, _ => .error (.notPrefixable v.kind)

/-! ## Outcomes -/

/-- The labels of the items that failed. -/
structure Outcome where
  labels : List String
  deriving DecidableEq, Repr

namespace Outcome

/-- Nothing failed. -/
def isOk (o : Outcome) : Bool := o.labels.isEmpty

/-- The labels, with a message in front. -/
def message (o : Outcome) (front : Value) : Except Fault String :=
  putInFront front (labelSeparator.intercalate o.labels)

/-- The report on an outcome. -/
def report (o : Outcome) (front : Value) : Except Fault Report :=
  if o.isOk then .ok .ok else (o.message front).map .error

/-- An outcome as it is shown to a reader. -/
def shown (o : Outcome) : String :=
  "ValidationOutcome(missing_or_invalid=" ++ quotedList o.labels ++ ")"

/-- The outcome as a JSON value. -/
def toJson (o : Outcome) : Json :=
  .object [("ok", .bool o.isOk), ("missing_or_invalid", Json.texts o.labels)]

theorem isOk_iff (o : Outcome) : o.isOk = true ↔ o.labels = [] := List.isEmpty_iff

theorem report_text (o : Outcome) (s : String) :
    o.report (.text s) =
      .ok (if o.isOk then .ok else .error (s ++ labelSeparator.intercalate o.labels)) := by
  unfold report
  split <;> rfl

/-! ## Outcomes from values -/

/-- The labels that a value holds: its elements, or none if it counts as false. -/
def labelValues (v : Value) : Except Fault (List Value) :=
  if v.truthy then v.elements else .ok []

/-- The report on labels that should be texts. Whether they are is seen only if there are any. -/
def reportValues (labels : List Value) (front : Value) : Except Fault Report :=
  if labels.isEmpty then .ok .ok
  else
    match Value.texts labels with
    | .error f => .error f
    | .ok ls => report ⟨ls⟩ front

/-- The outcome with the given labels. They have to be texts, and no number
among them may be too long to be written. -/
def ofValues (labels : List Value) : Except Fault Outcome :=
  if Value.areWritable labels then (Value.texts labels).map Outcome.mk
  else .error .tooLongToWrite

/-- The labels are the given ones. -/
def hasLabels (o : Outcome) (labels : List Value) : Bool :=
  match Value.texts labels with
  | .ok ls => o.labels = ls
  | .error _ => false

/-- The outcome with the labels that the first value holds, and whether the
second value holds the same ones. -/
def compare (a b : Value) : Except Fault (Outcome × Bool) :=
  match labelValues a, labelValues b with
  | .error f, _ => .error f
  | .ok _, .error f => .error f
  | .ok as, .ok bs => (ofValues as).map fun o => (o, o.hasLabels bs)

theorem ofValues_texts (o : Outcome) (h : Value.areWritable (o.labels.map .text) = true) :
    ofValues (o.labels.map .text) = .ok o := by
  simp [ofValues, h, Except.map]

theorem reportValues_texts (o : Outcome) (front : Value) :
    reportValues (o.labels.map .text) front = o.report front := by
  obtain ⟨labels⟩ := o
  unfold reportValues
  cases labels with
  | nil => rfl
  | cons l ls => rw [Value.texts_map_text]; rfl

end Outcome

end FieldCheck
