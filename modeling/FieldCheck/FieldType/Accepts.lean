/-
FieldCheck.FieldType.Accepts — which values a required type accepts.

A text field accepts texts; a whole-number field accepts whole numbers,
floating-point numbers without a fraction and numerals with a whole value;
a truth-value field accepts truth values and the texts `true` and `false`.
The other types accept everything. A bound limits the number of characters
of a text, and of the decimal form of a whole number with its sign; for a
numeral it limits the characters of the text itself.

`accepts` is a fault only where a bound asks for the length of a whole
number that has too many digits to be written.
-/
import FieldCheck.FieldType
import FieldCheck.Number.Numeral
import FieldCheck.Value

namespace FieldCheck

namespace Value

/-! ## Numbers -/

/-- A number or a numeral. Truth values are no numbers. -/
def isNumeric : Value → Bool
  | int _ => true
  | float _ => true
  | text s => Numeral.isNumeral s
  | _ => false

/-- A whole number, a floating-point number without a fraction, or a numeral
whose value is a whole number. -/
def isIntegerValued : Value → Bool
  | int _ => true
  | float x => x.isWhole
  | text s => Numeral.isIntegral s
  | _ => false

/-- The length of the decimal form of a whole number. -/
def decimalLength (n : Int) : Except Fault Nat :=
  if Decimal.isWritable n then .ok (Decimal.chars n).length else .error .tooLongToWrite

/-- The length of the written form of a whole number; a numeral is written already. -/
def integerLength : Value → Except Fault Nat
  | text s => .ok s.length
  | int n => decimalLength n
  | float x => decimalLength (x.toInt?.getD 0)
  | _ => .ok 0

/-- A value counts as present when it is true or a number or a numeral, so
that zero is present and nothing, false and what is empty are not. -/
def isPresent (v : Value) : Bool := v.truthy || v.isNumeric

/-! ## The words for truth values -/

/-- The texts that are accepted as truth values. -/
def truthWords : List String := ["true", "false"]

/-- A truth value, or a text that spells one. -/
def isBoolean : Value → Bool
  | bool _ => true
  | text s => truthWords.contains s
  | _ => false

end Value

namespace FieldType

/-! ## Acceptance -/

/-- A length is within a bound; without a bound every length is. -/
def within (bound : Option Int) (length : Nat) : Bool :=
  match bound with
  | none => true
  | some n => (length : Int) ≤ n

/-- The length of a whole number is within a bound. The length is needed only if there is one. -/
def integerWithin (bound : Option Int) (v : Value) : Except Fault Bool :=
  match bound with
  | none => .ok true
  | some _ => v.integerLength.map (within bound)

/-- A required type with a bound accepts a value. -/
def accepts (t : FieldType) (bound : Option Int) (v : Value) : Except Fault Bool :=
  match t with
  | any => .ok true
  | unknown => .ok true
  | boolean => .ok v.isBoolean
  | text =>
    match v with
    | .text s => .ok (within bound s.length)
    | _ => .ok false
  | integer => if v.isIntegerValued then integerWithin bound v else .ok false

@[simp] theorem accepts_any (bound : Option Int) (v : Value) : accepts any bound v = .ok true := rfl

@[simp] theorem accepts_unknown (bound : Option Int) (v : Value) :
    accepts unknown bound v = .ok true := rfl

@[simp] theorem accepts_boolean (bound : Option Int) (v : Value) :
    accepts boolean bound v = .ok v.isBoolean := rfl

/-- Without a bound no value is a fault. -/
theorem accepts_none (t : FieldType) (v : Value) : ∃ b, accepts t none v = .ok b := by
  cases t
  · exact ⟨_, rfl⟩
  · cases v <;> exact ⟨_, rfl⟩
  · by_cases h : v.isIntegerValued = true
    · exact ⟨true, by simp [accepts, h, integerWithin]⟩
    · exact ⟨false, by simp [accepts, h]⟩
  · exact ⟨_, rfl⟩
  · exact ⟨_, rfl⟩

end FieldType

end FieldCheck
