/-
FieldCheck.Check — checking a record against descriptors.

A record meets a requirement when the path leads somewhere, the value there
is present if it has to be, and the required type accepts it. An item fails
when the record meets none of its descriptors; the members of a group are
tried in order, and the first one that is met ends the search. A check goes
through all items and collects the labels of those that failed.

The log of a check holds what reading each tried descriptor logged, in
order, and at the end one record with the number of failed items if there
are any.
-/
import FieldCheck.Descriptor
import FieldCheck.FieldType.Accepts
import FieldCheck.Item
import FieldCheck.Outcome
import FieldCheck.Path

namespace FieldCheck

/-! ## Requirements -/

/-- The requirement is met by what its path leads to. -/
def Requirement.isMetBy (r : Requirement) : Option Value → Except Fault Bool
  | none => .ok false
  | some v => if r.truthy && !v.isPresent then .ok false else r.type.accepts r.maxLength v

/-- The record meets the requirement. -/
def Requirement.isMet (r : Requirement) (record : Value) : Except Fault Bool :=
  r.isMetBy (Path.resolve r.path record)

/-- The record meets the requirement that a descriptor stands for. -/
def Descriptor.isMet (descriptor record : Value) : Traced Bool := do
  let r ← Descriptor.parseValue descriptor
  Traced.ofExcept (r.isMet record)

/-! ## Items -/

/-- The record meets one of the descriptors. Those behind it are not looked at. -/
def anyMet : List Value → Value → Traced Bool
  | [], _ => pure false
  | d :: rest, record => do
    if ← Descriptor.isMet d record then pure true else anyMet rest record

/-- The label of an item that fails. -/
def Item.failure (item : Item) (record : Value) : Traced (Option String) := do
  if ← anyMet item.members record then pure none
  else
    let label ← Traced.ofExcept item.label
    pure (some label)

/-- The labels of the items that fail. -/
def failures : List Item → Value → Traced (List String)
  | [], _ => pure []
  | item :: rest, record => do
    let first ← item.failure record
    let others ← failures rest record
    pure (first.toList ++ others)

/-! ## Whole checks -/

/-- The log record on a check with failures. -/
def failedRecord (count : Nat) : LogRecord :=
  ⟨.debug, .engine, "Required field check failed for " ++ Decimal.text count ++ " item(s)"⟩

/-- What is logged on an outcome. -/
def Outcome.log (o : Outcome) : List LogRecord :=
  if o.isOk then [] else [failedRecord o.labels.length]

/-- Checks items against a record. -/
def checkItems (items : List Item) (record : Value) : Traced Outcome := do
  let labels ← failures items record
  let o : Outcome := ⟨labels⟩
  Traced.writeAll o.log
  pure o

/-- Checks a list of descriptors against a record. -/
def check (descriptors record : Value) : Traced Outcome := do
  let items ← Traced.ofExcept (Item.listOf descriptors)
  checkItems items record

end FieldCheck
