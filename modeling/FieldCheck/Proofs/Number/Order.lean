/-
FieldCheck.Proofs.Number.Order — comparisons by exact values.

Floating-point numbers are compared by exact computations on units, so each
comparison of finite numbers is the one of their values: with a whole number
(`ltInt_iff`, `intLt_iff`), with another one (`lt_iff`), and with a quantity,
which is a number of either kind (`Quantity.isBelow_iff`).

Subtraction rounds. `IsExact times` says of some times that differences between
them are not rounded, and `seconds` is the number that such a time stands for.
-/
import Mathlib.Data.Set.Basic
import Mathlib.Tactic.Linarith
import FieldCheck.Number.Quantity
import FieldCheck.Proofs.Number.Whole
import FieldCheck.Schema

namespace FieldCheck

namespace Double

/-! ## Comparisons -/

theorem unitsPerOne_pos_rat : (0 : ℚ) < unitsPerOne := by exact_mod_cast unitsPerOne_pos

theorem ltInt_iff {x : Double} {v : ℚ} (h : x.value? = some v) (n : Int) :
    x.ltInt n = true ↔ v < n := by
  cases x with
  | nan => simp [value?] at h
  | infinite negative => simp [value?] at h
  | finite negative code bounded =>
    simp only [value?, Option.some.injEq] at h
    rw [← h, div_lt_iff₀ unitsPerOne_pos_rat, ltInt, decide_eq_true_iff]
    norm_cast

theorem intLt_iff {x : Double} {v : ℚ} (h : x.value? = some v) (n : Int) :
    intLt n x = true ↔ n < v := by
  cases x with
  | nan => simp [value?] at h
  | infinite negative => simp [value?] at h
  | finite negative code bounded =>
    simp only [value?, Option.some.injEq] at h
    rw [← h, lt_div_iff₀ unitsPerOne_pos_rat, intLt, decide_eq_true_iff]
    norm_cast

theorem lt_iff {x y : Double} {v u : ℚ} (hx : x.value? = some v) (hy : y.value? = some u) :
    x.lt y = true ↔ v < u := by
  cases x with
  | nan => simp [value?] at hx
  | infinite negative => simp [value?] at hx
  | finite negative code bounded =>
    cases y with
    | nan => simp [value?] at hy
    | infinite negative => simp [value?] at hy
    | finite negative' code' bounded' =>
      simp only [value?, Option.some.injEq] at hx hy
      rw [← hx, ← hy, div_lt_div_iff_of_pos_right unitsPerOne_pos_rat, lt, decide_eq_true_iff]
      norm_cast

/-- Numbers are at most each other or greater, unless one of them is `nan`. -/
theorem le_eq_not_lt {x y : Double} (hx : x ≠ .nan) (hy : y ≠ .nan) : x.le y = !y.lt x := by
  cases x with
  | nan => exact absurd rfl hx
  | infinite a =>
    cases y with
    | nan => exact absurd rfl hy
    | infinite b => cases a <;> cases b <;> rfl
    | finite b d hd => cases a <;> rfl
  | finite a c hc =>
    cases y with
    | nan => exact absurd rfl hy
    | infinite b => cases b <;> rfl
    | finite b d hd =>
      rw [le, lt, ← decide_not]
      exact decide_eq_decide.2 Int.not_lt.symm

/-- A whole number between zero and a floating-point number is short enough to be written. -/
theorem isWritable_of_intLt {x : Double} {v : ℚ} {n : Int} (h : x.value? = some v) (hn : 0 ≤ n)
    (hlt : intLt n x = true) : Decimal.isWritable n = true := by
  cases x with
  | nan => simp [value?] at h
  | infinite negative => simp [value?] at h
  | finite negative code bounded =>
    rw [intLt, decide_eq_true_iff] at hlt
    have hone : (0 : Int) < unitsPerOne := by exact_mod_cast unitsPerOne_pos
    have hself : n ≤ n * unitsPerOne := le_mul_of_one_le_right hn hone
    have habs : n.natAbs ≤ (signedUnits negative code).natAbs := by omega
    rw [natAbs_signedUnits] at habs
    rw [Decimal.isWritable, decide_eq_true_iff]
    exact Nat.lt_of_le_of_lt habs (units_lt_digitLimit bounded)

/-! ## Times -/

/-- The number of seconds that a time stands for. -/
def seconds (t : Double) : ℚ := t.value?.getD 0

/-- Differences between the times are not rounded. -/
def IsExact (times : Set Double) : Prop :=
  ∀ a ∈ times, ∀ b ∈ times, (a.sub b).value? = some (seconds a - seconds b)

end Double

namespace Quantity

/-- The exact value of a quantity that is finite. -/
def value? : Quantity → Option ℚ
  | whole n => some n
  | real x => x.value?

theorem isBelow_iff {q : Quantity} {x : Double} {v u : ℚ} (hq : q.value? = some v)
    (hx : x.value? = some u) : q.isBelow x = true ↔ v < u := by
  cases q with
  | whole n =>
    cases hq
    exact Double.intLt_iff hx n
  | real y => exact Double.lt_iff hq hx

/-- A number is at most a quantity or greater, unless one of them is `nan`. -/
theorem isAtLeast_eq_not_isBelow {q : Quantity} {x : Double} (hq : q ≠ .real .nan) (hx : x ≠ .nan) :
    q.isAtLeast x = !q.isBelow x := by
  cases q with
  | whole n =>
    cases x with
    | nan => exact absurd rfl hx
    | infinite negative => rfl
    | finite negative code bounded => rfl
  | real y =>
    have hy : y ≠ .nan := fun h => hq (by rw [h])
    have hle := Double.le_eq_not_lt hx hy
    cases x with
    | nan => exact absurd rfl hx
    | infinite negative => exact hle
    | finite negative code bounded => exact hle

theorem isAtLeast_iff {q : Quantity} {x : Double} {v u : ℚ} (hq : q.value? = some v)
    (hx : x.value? = some u) : q.isAtLeast x = true ↔ u ≤ v := by
  have hqn : q ≠ .real .nan := by
    rintro rfl
    cases hq
  have hxn : x ≠ .nan := by
    rintro rfl
    cases hx
  rw [isAtLeast_eq_not_isBelow hqn hxn, Bool.not_eq_true', Bool.eq_false_iff, ne_eq,
    isBelow_iff hq hx, not_lt]

theorem nonneg_of_value? {q : Quantity} {v : ℚ} (hq : q.value? = some v)
    (h : isNegative q.toValue = false) : 0 ≤ v := by
  cases q with
  | whole n =>
    cases hq
    exact_mod_cast not_lt.1 (of_decide_eq_false h)
  | real x =>
    have hx : ¬ x.ltInt 0 = true := by
      rw [Bool.not_eq_true]
      exact h
    rw [Double.ltInt_iff hq] at hx
    exact_mod_cast not_lt.1 hx

/-- A quantity that is below a finite number and not negative can be written. -/
theorem isWritable_toValue {q : Quantity} {x : Double} {v : ℚ} (hx : x.value? = some v)
    (hq : isNegative q.toValue = false) (hbelow : q.isBelow x = true) :
    q.toValue.isWritable = true := by
  cases q with
  | whole n => exact Double.isWritable_of_intLt hx (not_lt.1 (of_decide_eq_false hq)) hbelow
  | real x => rfl

end Quantity

end FieldCheck
