/-
FieldCheck.Path — following a path into nested dictionaries.

A path is a list of keys. Each key but the first is looked up in what the
keys before it lead to; a key that is not there, or a value that is no
dictionary, ends the walk. The empty path leads to the record itself, and
nothing found under a key counts as found.

`resolve` follows keys that are texts, which never fails. `follow` takes
keys of any kind; a key that cannot be one is a fault, but only when it is
looked up in a dictionary. On texts the two agree (`follow_texts`).
-/
import FieldCheck.Value

namespace FieldCheck.Path

/-- What a path of texts leads to in a record. -/
def resolve : List String → Value → Option Value
  | [], v => some v
  | key :: rest, .dict entries =>
    match Value.field key entries with
    | some v => resolve rest v
    | none => none
  | _ :: _, _ => none

/-- What a path of any keys leads to in a record. -/
def follow : List Value → Value → Except Fault (Option Value)
  | [], v => .ok (some v)
  | key :: rest, .dict entries =>
    match key.asKey with
    | .error f => .error f
    | .ok k =>
      match Value.lookup k entries with
      | some v => follow rest v
      | none => .ok none
  | _ :: _, _ => .ok none

/-! ## Laws -/

@[simp] theorem resolve_nil (v : Value) : resolve [] v = some v := by cases v <;> rfl

theorem resolve_cons (key : String) (rest : List String) (v : Value) :
    resolve (key :: rest) v = (v.field? key).bind (resolve rest) := by
  cases v <;> simp only [resolve, Value.field?, Option.bind_none]
  rename_i es
  cases Value.field key es <;> rfl

/-- On texts both walks lead to the same place. -/
theorem follow_texts (p : List String) (v : Value) :
    follow (p.map .text) v = .ok (resolve p v) := by
  induction p generalizing v with
  | nil => cases v <;> rfl
  | cons key rest ih =>
    cases v <;> try rfl
    rename_i es
    simp only [List.map_cons, follow, resolve, Value.asKey, Value.unhashablePart, Value.field]
    cases Value.lookup (.text key) es with
    | none => rfl
    | some w => exact ih w

end FieldCheck.Path
