/-
FieldCheck.Discovery — how descriptors are understood.

Discovery reads each descriptor of a list and reports the requirement that
it stands for, without any record. Groups are reported with their label and
their members.
-/
import FieldCheck.Descriptor
import FieldCheck.Item

namespace FieldCheck

/-! ## Findings -/

/-- A descriptor with the requirement that it stands for. -/
structure Described where
  descriptor : String
  requirement : Requirement
  deriving DecidableEq, Repr

/-- What discovery says about one item. -/
inductive Finding where
  | single (described : Described)
  | group (label : String) (members : List Described)
  deriving DecidableEq, Repr

/-- A described descriptor as a JSON value. -/
def Described.toJson (d : Described) : Json :=
  .object [("descriptor", .text d.descriptor), ("spec", d.requirement.toJson)]

/-- A finding as a JSON value. -/
def Finding.toJson : Finding → Json
  | single d => d.toJson
  | group label members =>
    .object [("group", .text label), ("members", .array (members.map Described.toJson))]

/-! ## Discovery -/

/-- Describes a descriptor, which has to be a text. -/
def describe : Value → Traced Described
  | .text s => do
    let r ← Descriptor.parseLogged s
    pure ⟨s, r⟩
  | v => Traced.fail (.descriptorNotText v.kind)

/-- Describes several descriptors. -/
def describeAll : List Value → Traced (List Described)
  | [] => pure []
  | v :: rest => do
    let first ← describe v
    let others ← describeAll rest
    pure (first :: others)

/-- The finding on an item. The label of a group comes before its members. -/
def discoverItem : Item → Traced Finding
  | .single v => do
    let d ← describe v
    pure (.single d)
  | .group members => do
    let label ← Traced.ofExcept (Item.groupLabel members)
    let ds ← describeAll members
    pure (.group label ds)

/-- The findings on several items. -/
def discoverItems : List Item → Traced (List Finding)
  | [] => pure []
  | item :: rest => do
    let first ← discoverItem item
    let others ← discoverItems rest
    pure (first :: others)

/-- The findings on a list of descriptors. -/
def discover (descriptors : Value) : Traced (List Finding) := do
  let items ← Traced.ofExcept (Item.listOf descriptors)
  discoverItems items

/-- Findings as a JSON value. -/
def findingsJson (fs : List Finding) : Json := .array (fs.map Finding.toJson)

end FieldCheck
