/-
FieldCheck.FieldType — the types that a descriptor can require.

A descriptor names a type by a token: nothing at all for any value, `str`
for texts, `int` for whole numbers and `bool` for truth values. Every other
token is kept as an unknown type, which accepts every value.
-/

namespace FieldCheck

/-- A type that a descriptor can require. -/
inductive FieldType where
  | any
  | text
  | integer
  | boolean
  | unknown
  deriving DecidableEq, Repr

namespace FieldType

/-- The name under which a type is reported. -/
def name : FieldType → String
  | any => "none"
  | text => "str"
  | integer => "int"
  | boolean => "bool"
  | unknown => "unknown"

/-- All types. -/
def all : List FieldType := [any, text, integer, boolean, unknown]

/-- The type with a reported name. -/
def ofName? (s : String) : Option FieldType := all.find? fun t => t.name = s

/-- The type that a token stands for. Case counts, and so do blanks. -/
def ofToken (token : String) : FieldType :=
  if token = "" then any
  else if token = "str" then text
  else if token = "int" then integer
  else if token = "bool" then boolean
  else unknown

@[simp] theorem ofName?_name (t : FieldType) : ofName? t.name = some t := by cases t <;> rfl

/-- A token is unknown exactly when it is none of the four known ones. -/
theorem ofToken_eq_unknown_iff (token : String) :
    ofToken token = unknown ↔ token ∉ ["", "str", "int", "bool"] := by
  simp only [ofToken, List.mem_cons, List.not_mem_nil, or_false, not_or]
  split
  · simp_all
  split
  · simp_all
  split
  · simp_all
  split <;> simp_all

end FieldType

end FieldCheck
