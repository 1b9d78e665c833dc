/-
FieldCheck.Item — the items of a list of descriptors.

An item is a descriptor on its own or an either-or group of descriptors. A
group is given as a list or a tuple. The label of an item is what a report
calls it: the descriptor as it was written, or the members of the group with
`or` between them.
-/
import FieldCheck.Value

namespace FieldCheck

/-- An entry of a list of descriptors. -/
inductive Item where
  | single (descriptor : Value)
  | group (members : List Value)

namespace Item

/-- What is between the members of a group. -/
def memberSeparator : String := " or "

/-- The item that a value stands for. -/
def ofValue : Value → Item
  | .list members => group members
  | .tuple members => group members
  | v => single v

/-- The items of a value that holds a list of descriptors. -/
def listOf (descriptors : Value) : Except Fault (List Item) :=
  descriptors.elements.map fun vs => vs.map ofValue

/-- The label of a group. -/
def groupLabel (members : List Value) : Except Fault String :=
  (Value.texts members).map memberSeparator.intercalate

/-- The label of an item. -/
def label : Item → Except Fault String
  | single (.text s) => .ok s
  | single v => .error (.descriptorNotText v.kind)
  | group members => groupLabel members

/-- The descriptors of an item, one of which has to be met. -/
def members : Item → List Value
  | single d => [d]
  | group ms => ms

/-- The item with one text. -/
@[simp] theorem ofValue_text (s : String) : ofValue (.text s) = single (.text s) := rfl

/-- The label of a group of texts. -/
theorem groupLabel_texts (ss : List String) :
    groupLabel (ss.map .text) = .ok (memberSeparator.intercalate ss) := by
  simp [groupLabel, Except.map]

end Item

end FieldCheck
