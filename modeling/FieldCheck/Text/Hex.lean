/-
FieldCheck.Text.Hex — hexadecimal digits.

Numbers are written in base sixteen with lower-case digits, padded to a
width where a format asks for one, and single digits of either case are
read back. `hexValue_hexDigit` says that reading undoes writing.
-/

namespace FieldCheck.Text

/-! ## Writing -/

/-- The digit that stands for a number below sixteen. -/
def hexDigit (n : Nat) : Char := Nat.digitChar (n % 16)

/-- The last `width` hexadecimal digits of a number. -/
def hexPadded : Nat → Nat → List Char
  | 0, _ => []
  | width + 1, n => hexPadded width (n / 16) ++ [hexDigit n]

@[simp] theorem length_hexPadded (width n : Nat) : (hexPadded width n).length = width := by
  induction width generalizing n with
  | zero => rfl
  | succ w ih => simp [hexPadded, ih]

/-! ## Reading -/

/-- The value of one hexadecimal digit. -/
def hexValue (c : Char) : Option Nat :=
  if '0' ≤ c && c ≤ '9' then some (c.toNat - '0'.toNat)
  else if 'a' ≤ c && c ≤ 'f' then some (c.toNat - 'a'.toNat + 10)
  else if 'A' ≤ c && c ≤ 'F' then some (c.toNat - 'A'.toNat + 10)
  else none

theorem hexValue_hexDigit_all : ∀ n : Fin 16, hexValue (hexDigit n.val) = some n.val := by decide

/-- Reading a written digit gives its value. -/
theorem hexValue_hexDigit (n : Nat) : hexValue (hexDigit n) = some (n % 16) := by
  have h := hexValue_hexDigit_all ⟨n % 16, Nat.mod_lt _ (by decide)⟩
  simpa [hexDigit] using h

end FieldCheck.Text
