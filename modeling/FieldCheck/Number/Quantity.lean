/-
FieldCheck.Number.Quantity — whole and floating-point numbers together.

A quantity is a number as a configuration gives it, whole or floating-point.
It is compared with floating-point numbers exactly: a whole number is never
rounded for it.
-/
import FieldCheck.Number.Shortest
import FieldCheck.Value.Display

namespace FieldCheck

/-- A number of either kind. -/
inductive Quantity where
  | whole (n : Int)
  | real (x : Double)
  deriving DecidableEq

namespace Quantity

/-- The quantity that a value is. -/
def ofValue? : Value → Option Quantity
  | .int n => some (whole n)
  | .float x => some (real x)
  | _ => none

/-- A quantity as a value. -/
def toValue : Quantity → Value
  | whole n => .int n
  | real x => .float x

/-- The quantity is less than a floating-point number. -/
def isBelow : Quantity → Double → Bool
  | whole n, y => Double.intLt n y
  | real x, y => x.lt y

/-- A floating-point number is at most the quantity. -/
def isAtLeast : Quantity → Double → Bool
  | _, .nan => false
  | whole n, y => !Double.intLt n y
  | real x, y => y.le x

@[simp] theorem ofValue?_toValue (q : Quantity) : ofValue? q.toValue = some q := by cases q <;> rfl

theorem toValue_of_ofValue? {v : Value} {q : Quantity} (h : ofValue? v = some q) : q.toValue = v := by
  cases v <;> cases h <;> rfl

end Quantity

end FieldCheck
