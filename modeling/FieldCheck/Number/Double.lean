/-
FieldCheck.Number.Double — floating-point numbers of 64 bits.

A `Double` is not a number, an infinity, or a sign and the `code` of a
finite magnitude: the eleven bits of the exponent above the fifty-two bits
of the fraction, read as one number. Codes are in the order of the
magnitudes they stand for. All magnitudes are whole multiples of one unit,
2^-1074 (`unitsPerOne` of them make one), so sums, comparisons and roundings
are exact computations on natural numbers.

`roundCode` is the one place where rounding happens: it gives the code of
the magnitude nearest to a quotient of units, a half going to the even code.
`roundCode_units` says that a magnitude that has a code rounds to it.
-/
import FieldCheck.Number.Decimal

namespace FieldCheck

/-! ## Magnitudes -/

namespace Double

/-- The least code that no longer stands for a finite magnitude. -/
def codeLimit : Nat := 0x7FF0000000000000

/-- The number of units that make one. -/
def unitsPerOne : Nat := 2 ^ 1074

/-- The magnitude with a given code, in units. -/
def units (code : Nat) : Nat :=
  if code < 2 ^ 53 then code else (2 ^ 52 + code % 2 ^ 52) * 2 ^ (code / 2 ^ 52 - 1)

/-- The quotient of two numbers rounded to the nearest whole number, a half to the even one. -/
def roundHalfEven (num den : Nat) : Nat :=
  let q := num / den
  let r := num % den
  if den < 2 * r ∨ (2 * r = den ∧ q % 2 = 1) then q + 1 else q

/-- How many binary digits of a number of units are dropped when it is rounded. -/
def dropped (n : Nat) : Nat := if n < 2 ^ 53 then 0 else n.log2 - 52

/-- The code of the magnitude nearest to `num / den` units; a code of
`codeLimit` or more means that the quotient is too large. -/
def roundCode (num den : Nat) : Nat :=
  let s := dropped (num / den)
  s * 2 ^ 52 + roundHalfEven num (den * 2 ^ s)

end Double

/-! ## The numbers -/

/-- A floating-point number of 64 bits. -/
inductive Double where
  | nan
  | infinite (negative : Bool)
  | finite (negative : Bool) (code : Nat) (bounded : code < Double.codeLimit)
  deriving DecidableEq

namespace Double

/-- The positive zero. -/
def zero : Double := .finite false 0 (by decide)

instance : Inhabited Double := ⟨zero⟩

/-- The number nearest to `num / den` units. -/
def ofUnits (negative : Bool) (num den : Nat) : Double :=
  if h : roundCode num den < codeLimit then .finite negative (roundCode num den) h
  else .infinite negative

/-- The number nearest to a whole number. -/
def ofInt (n : Int) : Double := ofUnits (n < 0) (n.natAbs * unitsPerOne) 1

/-- Powers of ten beyond this one are out of every finite range. -/
def exponentBound : Int := 400

/-- The number nearest to `coefficient * 10 ^ exponent`. -/
def ofDecimal (negative : Bool) (coefficient : Nat) (exponent : Int) : Double :=
  let places := exponent + (Decimal.digits coefficient).length
  if coefficient = 0 ∨ places < -exponentBound then .finite negative 0 (by decide)
  else if exponentBound < places then .infinite negative
  else if 0 ≤ exponent then
    ofUnits negative (coefficient * 10 ^ exponent.toNat * unitsPerOne) 1
  else ofUnits negative (coefficient * unitsPerOne) (10 ^ exponent.natAbs)

/-- The number with the other sign. -/
def neg : Double → Double
  | .nan => .nan
  | .infinite s => .infinite !s
  | .finite s c h => .finite (!s) c h

/-- The signed number of units of a finite magnitude. -/
def signedUnits (negative : Bool) (code : Nat) : Int :=
  if negative then -(units code : Int) else units code

/-- The sum of two numbers; a sum of nothing is negative only if both parts are. -/
def add : Double → Double → Double
  | .nan, _ => .nan
  | _, .nan => .nan
  | .infinite a, .infinite b => if a = b then .infinite a else .nan
  | .infinite a, .finite .. => .infinite a
  | .finite .., .infinite b => .infinite b
  | .finite a c _, .finite b d _ =>
    let sum := signedUnits a c + signedUnits b d
    if sum = 0 then .finite (a && b) 0 (by decide)
    else ofUnits (sum < 0) sum.natAbs 1

/-- The difference of two numbers. -/
def sub (x y : Double) : Double := add x y.neg

/-- A finite number differs from itself by zero; for the others there is no difference. -/
theorem sub_self (x : Double) : x.sub x = zero ∨ x.sub x = .nan := by
  cases x with
  | nan => exact .inr rfl
  | infinite negative => cases negative <;> exact .inr rfl
  | finite negative code bounded =>
    have hsum : signedUnits negative code + signedUnits (!negative) code = 0 := by
      cases negative
      · exact Int.add_right_neg _
      · exact Int.add_left_neg _
    refine .inl ?_
    simp only [sub, neg, add, hsum, if_true, zero, Bool.and_not_self]

/-! ## Order -/

/-- The first number is less than the second. Nothing compares with `nan`. -/
def lt : Double → Double → Bool
  | .nan, _ => false
  | _, .nan => false
  | .infinite a, .infinite b => a && !b
  | .infinite a, .finite .. => a
  | .finite .., .infinite b => !b
  | .finite a c _, .finite b d _ => signedUnits a c < signedUnits b d

/-- The first number is at most the second. -/
def le : Double → Double → Bool
  | .nan, _ => false
  | _, .nan => false
  | .infinite a, .infinite b => a || !b
  | .infinite a, .finite .. => a
  | .finite .., .infinite b => !b
  | .finite a c _, .finite b d _ => signedUnits a c ≤ signedUnits b d

/-- The two stand for the same number: `nan` for none, and both zeros for zero. -/
def same (x y : Double) : Bool := le x y && le y x

/-- The number is less than a whole number; the comparison is exact. -/
def ltInt : Double → Int → Bool
  | .nan, _ => false
  | .infinite a, _ => a
  | .finite a c _, n => signedUnits a c < n * unitsPerOne

/-- The whole number is less than the number. -/
def intLt : Int → Double → Bool
  | _, .nan => false
  | _, .infinite a => !a
  | n, .finite a c _ => n * unitsPerOne < signedUnits a c

/-! ## Whole numbers -/

/-- Neither infinite nor `nan`, and without a fractional part. -/
def isWhole : Double → Bool
  | .finite _ c _ => units c % unitsPerOne = 0
  | _ => false

/-- The whole number that a number without a fractional part is equal to. -/
def toInt? : Double → Option Int
  | .finite a c _ =>
    if units c % unitsPerOne = 0 then some (if a then -(units c / unitsPerOne : Nat)
      else (units c / unitsPerOne : Nat))
    else none
  | _ => none

/-- Either zero. -/
def isZero : Double → Bool
  | .finite _ c _ => c = 0
  | _ => false

/-! ## Rounding to a code -/

/-- Numbers of units below 2^53 are their own codes. -/
theorem units_of_lt {c : Nat} (h : c < 2 ^ 53) : units c = c := if_pos h

theorem roundHalfEven_mul (q d : Nat) (h : 0 < d) : roundHalfEven (q * d) d = q := by
  have h1 : q * d / d = q := Nat.mul_div_cancel q h
  have h2 : q * d % d = 0 := Nat.mul_mod_left q d
  simp only [roundHalfEven, h1, h2]
  rw [if_neg]
  rintro (h3 | ⟨h3, _⟩) <;> omega

/-- A magnitude that has a code rounds to that code. -/
theorem roundCode_units (c : Nat) : roundCode (units c) 1 = c := by
  unfold roundCode
  by_cases h : c < 2 ^ 53
  · have hd : dropped c = 0 := if_pos h
    have := roundHalfEven_mul c 1 (by decide)
    simp only [Nat.mul_one] at this
    simp [units_of_lt h, hd, this]
  · have hc : 2 ≤ c / 2 ^ 52 := by
      have : 2 ^ 53 ≤ c := by omega
      exact (Nat.le_div_iff_mul_le (by decide)).2 (by omega)
    have hu : units c = (2 ^ 52 + c % 2 ^ 52) * 2 ^ (c / 2 ^ 52 - 1) := if_neg h
    generalize hs : c / 2 ^ 52 - 1 = s at hu
    have hm : c % 2 ^ 52 < 2 ^ 52 := Nat.mod_lt _ (by decide)
    have hlow : 2 ^ (52 + s) ≤ units c := by
      rw [hu, Nat.pow_add]; exact Nat.mul_le_mul_right _ (by omega)
    have hhigh : units c < 2 ^ (52 + s + 1) := by
      have e : 2 ^ (52 + s + 1) = 2 ^ 52 * 2 * 2 ^ s := by
        rw [Nat.pow_succ, Nat.pow_add, Nat.mul_right_comm]
      rw [hu, e]
      exact Nat.mul_lt_mul_of_pos_right (by omega) (Nat.two_pow_pos s)
    have hlog : (units c).log2 = 52 + s := by
      have hne : units c ≠ 0 := by have := Nat.two_pow_pos (52 + s); omega
      rw [Nat.log2_eq_iff hne]
      exact ⟨hlow, hhigh⟩
    have hdrop : dropped (units c) = s := by
      unfold dropped
      rw [if_neg, hlog]
      · omega
      · have : 2 ^ 53 ≤ 2 ^ (52 + s) := Nat.pow_le_pow_right (by decide) (by omega)
        omega
    simp only [Nat.div_one, hdrop, Nat.one_mul]
    rw [hu, roundHalfEven_mul _ _ (Nat.two_pow_pos s)]
    have := Nat.div_add_mod c (2 ^ 52)
    have : s + 1 = c / 2 ^ 52 := by omega
    have h3 : c = (s + 1) * 2 ^ 52 + c % 2 ^ 52 := by
      rw [this, Nat.mul_comm]; omega
    omega

end Double

end FieldCheck
