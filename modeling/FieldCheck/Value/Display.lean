/-
FieldCheck.Value.Display — the written form of values.

A value is written as a literal: texts in quotation marks, lists in square
brackets, tuples in round ones with a comma behind a single part, and
dictionaries with their entries in order. A text on its own is shown
without quotation marks.

Whole numbers beyond the limit on digits cannot be written. `isWritable`
says that a value holds none, and `display` has a text exactly then
(`display_eq_ok_iff`).
-/
import FieldCheck.Number.Shortest
import FieldCheck.Value

namespace FieldCheck.Value

/-! ## Literals -/

/-- Parts written between two marks. -/
def enclosed (opening closing : String) (parts : List String) : String :=
  opening ++ ", ".intercalate parts ++ closing

mutual

/-- The literal of a value. -/
def quoted : Value → String
  | null => "None"
  | bool b => if b then "True" else "False"
  | int n => Decimal.text n
  | float x => x.text
  | text s => Text.quote s
  | bytes bs => Text.quoteBytes bs
  | list xs => enclosed "[" "]" (quotedItems xs)
  | tuple xs => enclosed "(" (if xs.length = 1 then ",)" else ")") (quotedItems xs)
  | dict es => enclosed "\x7b" "\x7d" (quotedEntries es)

/-- The literals of several values. -/
def quotedItems : List Value → List String
  | [] => []
  | x :: xs => quoted x :: quotedItems xs

/-- The literals of the entries of a dictionary. -/
def quotedEntries : List (Value × Value) → List String
  | [] => []
  | (k, v) :: es => (quoted k ++ ": " ++ quoted v) :: quotedEntries es

end

/-- The value on its own: a text as it is, all else as its literal. -/
def shown : Value → String
  | text s => s
  | v => v.quoted

/-! ## The limit on digits -/

mutual

/-- The value holds no whole number that is too long to be written. -/
def isWritable : Value → Bool
  | int n => Decimal.isWritable n
  | list xs => areWritable xs
  | tuple xs => areWritable xs
  | dict es => entriesWritable es
  | _ => true

/-- None of the values holds such a number. -/
def areWritable : List Value → Bool
  | [] => true
  | x :: xs => isWritable x && areWritable xs

/-- No entry holds such a number. -/
def entriesWritable : List (Value × Value) → Bool
  | [] => true
  | (k, v) :: es => isWritable k && isWritable v && entriesWritable es

end

theorem areWritable_iff (vs : List Value) : areWritable vs = true ↔ ∀ v ∈ vs, v.isWritable = true := by
  induction vs with
  | nil => simp [areWritable]
  | cons v vs ih => simp [areWritable, ih]

theorem entriesWritable_iff (es : List (Value × Value)) :
    entriesWritable es = true ↔ ∀ e ∈ es, e.1.isWritable = true ∧ e.2.isWritable = true := by
  induction es with
  | nil => simp [entriesWritable]
  | cons e es ih =>
    obtain ⟨k, v⟩ := e
    simp [entriesWritable, ih, and_assoc]

/-- A value holds what its fields hold. -/
theorem isWritable_of_field? {v w : Value} {key : String} (h : v.field? key = some w)
    (hv : v.isWritable = true) : w.isWritable = true := by
  cases v with
  | dict es =>
    rw [field?, field, lookup, Option.map_eq_some_iff] at h
    obtain ⟨e, hfind, rfl⟩ := h
    rw [isWritable, entriesWritable_iff] at hv
    exact (hv e (List.mem_of_find?_eq_some hfind)).2
  | _ => simp [field?] at h

/-- The value on its own, unless it holds a number that is too long. -/
def display (v : Value) : Except Fault String :=
  if v.isWritable then .ok v.shown else .error .tooLongToWrite

theorem display_eq_ok_iff (v : Value) (s : String) :
    v.display = .ok s ↔ v.isWritable = true ∧ v.shown = s := by
  unfold display
  split <;> simp_all

end FieldCheck.Value
