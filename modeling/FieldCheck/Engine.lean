/-
FieldCheck.Engine — checks together with a source of messages.

The report on an outcome has the message under the report key in front. The
message is looked up before it is known whether it is needed, so a catalog
without it logs a warning for good outcomes, too. An engine reports with a
source of its own, whatever others look up elsewhere.
-/
import FieldCheck.Check
import FieldCheck.Messages

namespace FieldCheck

namespace Messages

/-- The report on an outcome, with the message in front. -/
def report (m : Messages) (o : Outcome) : Traced Report := do
  let front ← m.get reportKey
  Traced.ofExcept (o.report front)

/-- The report on labels that should be texts. -/
def reportValues (m : Messages) (labels : List Value) : Traced Report := do
  let front ← m.get reportKey
  Traced.ofExcept (Outcome.reportValues labels front)

/-- A text under the report key is in front of every report. -/
theorem result_report {m : Messages} {front : String}
    (h : (m.get reportKey).result = .ok (.text front)) (o : Outcome) :
    (m.report o).result
      = .ok (if o.isOk then .ok else .error (front ++ labelSeparator.intercalate o.labels)) := by
  rw [report, Traced.result_bind_ok _ h]
  exact o.report_text front

theorem reportValues_texts (m : Messages) (o : Outcome) :
    m.reportValues (o.labels.map .text) = m.report o := by
  simp only [reportValues, report, Outcome.reportValues_texts]

end Messages

/-- What reports are made with. -/
structure Engine where
  messages : Messages

namespace Engine

/-- The report of an engine on an outcome. -/
def report (e : Engine) (o : Outcome) : Traced Report := e.messages.report o

/-- The report of an engine on labels that should be texts. -/
def reportValues (e : Engine) (labels : List Value) : Traced Report := e.messages.reportValues labels

end Engine

end FieldCheck
