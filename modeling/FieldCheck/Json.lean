/-
FieldCheck.Json — JSON values.

A JSON value is null, a truth value, a whole number, a floating-point
number, a text, an array or an object. Whole numbers are kept apart from
floating-point ones and have any size. The members of an object are in order
and no two have one name: `put` gives a name that is there already its new
value in the old place.

`Json.toValue` views a JSON value as a value of a record.
-/
import FieldCheck.Value

namespace FieldCheck

/-- A JSON value. -/
inductive Json where
  | null
  | bool (b : Bool)
  | int (n : Int)
  | float (x : Double)
  | text (s : String)
  | array (items : List Json)
  | object (members : List (String × Json))

namespace Json

instance : Inhabited Json := ⟨null⟩

/-! ## Objects -/

/-- The member with a name. -/
def member (name : String) (members : List (String × Json)) : Option Json :=
  (members.find? fun m => m.1 = name).map (·.2)

/-- Gives a name a value: in the place where the name stands, or at the end. -/
def put (name : String) (value : Json) : List (String × Json) → List (String × Json)
  | [] => [(name, value)]
  | (n, v) :: rest => if n = name then (n, value) :: rest else (n, v) :: put name value rest

/-- A name that is not there yet goes to the end. -/
theorem put_of_not_mem {name : String} (value : Json) {members : List (String × Json)}
    (h : name ∉ members.map (·.1)) : put name value members = members ++ [(name, value)] := by
  induction members with
  | nil => rfl
  | cons m rest ih =>
    obtain ⟨n, v⟩ := m
    simp only [List.map_cons, List.mem_cons, not_or] at h
    have : n ≠ name := fun e => h.1 e.symm
    simp [put, this, ih h.2]

/-- The member with a name, of a value that is an object. -/
def member? (name : String) : Json → Option Json
  | object ms => member name ms
  | _ => none

/-- An array of texts. -/
def texts (ss : List String) : Json := array (ss.map text)

/-! ## The view as a value -/

mutual

/-- A JSON value as a value of a record. -/
def toValue : Json → Value
  | null => .null
  | bool b => .bool b
  | int n => .int n
  | float x => .float x
  | text s => .text s
  | array xs => .list (toValues xs)
  | object ms => .dict (toEntries ms)

/-- Several JSON values as values. -/
def toValues : List Json → List Value
  | [] => []
  | x :: xs => toValue x :: toValues xs

/-- The members of an object as the entries of a dictionary. -/
def toEntries : List (String × Json) → List (Value × Value)
  | [] => []
  | (n, v) :: ms => (.text n, toValue v) :: toEntries ms

end

theorem toValues_eq_map (xs : List Json) : toValues xs = xs.map toValue := by
  induction xs with
  | nil => rfl
  | cons x xs ih => simp [toValues, ih]

theorem toEntries_eq_map (ms : List (String × Json)) :
    toEntries ms = ms.map fun m => (.text m.1, toValue m.2) := by
  induction ms with
  | nil => rfl
  | cons m ms ih => obtain ⟨n, v⟩ := m; simp [toEntries, ih]

/-- A member is found under its name in the dictionary, too. -/
theorem field_toEntries (name : String) (ms : List (String × Json)) :
    Value.field name (toEntries ms) = (member name ms).map toValue := by
  induction ms with
  | nil => rfl
  | cons m ms ih =>
    obtain ⟨n, v⟩ := m
    by_cases h : n = name
    · subst h; simp [Value.field, Value.lookup, member, toEntries, Value.sameKey, Value.sameAtom]
    · have h' : ¬ name = n := fun e => h e.symm
      simp only [Value.field, Value.lookup, member, toEntries, List.find?_cons,
        Value.sameKey, Value.sameAtom, h, h', decide_false] at ih ⊢
      exact ih

end Json

end FieldCheck
