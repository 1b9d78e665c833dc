/-
FieldCheck.Number.Decimal — whole numbers in decimal digits.

A whole number is written with its sign and its digits and no leading zero.
Conversion between digits and numbers is bounded: texts of more than
`digitLimit` digits are neither written nor read. `digits_le_limit_iff` says
that the bound on the digits is a bound on the number.
-/

-- Powers of natural numbers are those of the core library, also where Mathlib is in scope.
attribute [instance (high), default_instance 20000] instPowNat

namespace FieldCheck.Decimal

/-! ## Writing -/

/-- The most decimal digits that are converted to or from a number. -/
def digitLimit : Nat := 4300

/-- The decimal digits of a natural number, the leading one first. -/
def digits (n : Nat) : List Char := Nat.toDigits 10 n

/-- A number small enough to be written. -/
def isWritable (n : Int) : Bool := n.natAbs < 10 ^ digitLimit

/-- The decimal form of a number: a minus sign if it is negative, then its digits. -/
def chars (n : Int) : List Char :=
  if n < 0 then '-' :: digits n.natAbs else digits n.natAbs

/-- The decimal form of a number, as a text. -/
def text (n : Int) : String := String.ofList (chars n)

/-! ## Reading -/

/-- Whether a minus sign stands in front, and what is behind the sign; a plus sign or none is fine. -/
def splitSign : List Char → Bool × List Char
  | '-' :: rest => (true, rest)
  | '+' :: rest => (false, rest)
  | cs => (false, cs)

/-- A magnitude with its sign. -/
def withSign (negative : Bool) (n : Nat) : Int := if negative then -(n : Int) else n

/-- The number that a run of ASCII digits stands for. -/
def value (cs : List Char) : Nat := Nat.ofDigitChars 10 cs 0

/-- Reading the digits of a number gives the number. -/
theorem value_digits (n : Nat) : value (digits n) = n :=
  Nat.ofDigitChars_toDigits (by decide) (by decide)

/-- A run of digits stands for a number below the power of ten of its length. -/
theorem value_lt {cs : List Char} (h : ∀ c ∈ cs, c.isDigit = true) : value cs < 10 ^ cs.length := by
  induction cs with
  | nil => exact Nat.one_pos
  | cons c cs ih =>
    have hdigit : 10 * 0 + (c.toNat - '0'.toNat) ≤ 9 := by
      have hc := (Char.isDigit_iff_toNat.1 (h c (by simp))).2
      simp only [Char.reduceToNat] at hc ⊢
      omega
    have hrest := ih fun d hd => h d (by simp [hd])
    rw [value] at hrest
    rw [value, Nat.ofDigitChars_cons, Nat.ofDigitChars_eq_ofDigitChars_zero, List.length_cons,
      Nat.pow_succ]
    have := Nat.mul_le_mul_left (10 ^ cs.length) hdigit
    omega

/-- The digits of a number are decimal digits. -/
theorem isDigit_of_mem_digits {n : Nat} {c : Char} (h : c ∈ digits n) : c.isDigit = true :=
  Nat.isDigit_of_mem_toDigits (by decide) (by decide) h

/-- A number is written with at least one digit. -/
theorem digits_ne_nil (n : Nat) : digits n ≠ [] :=
  List.ne_nil_of_length_pos Nat.length_toDigits_pos

/-- A number has at most `k` digits exactly when it is below the `k`th power of ten. -/
theorem length_digits_le_iff {n k : Nat} (h : 0 < k) : (digits n).length ≤ k ↔ n < 10 ^ k :=
  Nat.length_toDigits_le_iff (by decide) h

/-- A number is writable exactly when its digits are within the limit. -/
theorem digits_le_limit_iff (n : Int) :
    (digits n.natAbs).length ≤ digitLimit ↔ isWritable n = true := by
  rw [length_digits_le_iff (by decide), isWritable, decide_eq_true_iff]

end FieldCheck.Decimal
