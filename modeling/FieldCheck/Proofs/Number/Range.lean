/-
FieldCheck.Proofs.Number.Range — the range of exact decimal arithmetic.

The range is a bound on two powers of ten: that of the leading digit of a number
and that of the last digit that is written. Whether a numeral is in the range is
decided by counting digits. `IsInRange` states the bound on the leading digit of
the value instead, as a logarithm, and `isRepresentable_iff` says that the two
agree. A zero has no leading digit; there the last one counts for both.

The bridge is `log_abs_value`: behind the zeros in front, the number of digits
tells the power of ten below the value.
-/
import Mathlib.Algebra.Order.Field.Power
import Mathlib.Data.Int.Log
import Mathlib.Data.Rat.Floor
import Mathlib.Tactic.Positivity
import FieldCheck.Proofs.Number.Whole

namespace FieldCheck.Numeral

/-! ## Digits and their number -/

theorem magnitude_lt (ds : List Char) (hds : AreDigits ds) : magnitude ds < 10 ^ ds.length := by
  induction ds using List.reverseRecOn with
  | nil => simp [magnitude]
  | append_singleton ds d ih =>
    have ih := ih fun c hc => hds c (by simp [hc])
    obtain ⟨v, hv⟩ := Option.isSome_iff_exists.1 (hds d (by simp))
    have hdigit := Text.digitValue_lt hv
    rw [magnitude_append_singleton, List.length_append, List.length_singleton, Nat.pow_succ, hv,
      Option.getD_some]
    omega

/-- A number whose first digit is no zero is at least the power of ten of that digit. -/
theorem le_magnitude {d : Char} (hd : Text.isDigit d = true) (hzero : isZeroDigit d = false)
    (ds : List Char) : 10 ^ ds.length ≤ magnitude (d :: ds) := by
  induction ds using List.reverseRecOn with
  | nil =>
    obtain ⟨h, -⟩ | ⟨-, h, -⟩ := digit_cases hd
    · simp [hzero] at h
    · simpa [magnitude, Nat.one_le_iff_ne_zero, Nat.pos_iff_ne_zero] using h
  | append_singleton ds c ih =>
    rw [← List.cons_append, magnitude_append_singleton, List.length_append, List.length_singleton,
      Nat.pow_succ]
    omega

/-- Zeros in front of a number do not count. -/
theorem magnitude_dropWhile (ds : List Char) :
    magnitude (ds.dropWhile isZeroDigit) = magnitude ds := by
  induction ds with
  | nil => rfl
  | cons d ds ih =>
    rw [List.dropWhile_cons]
    split
    · rename_i hzero
      have hd : Text.digitValue d = some 0 := by simpa [isZeroDigit] using hzero
      rw [ih]
      simp [magnitude, hd]
    · rfl

/-! ## The leading digit -/

theorem value_eq_zero_iff (n : Numeral) : n.value = 0 ↔ magnitude n.digits = 0 := by
  have hpow : (10 : ℚ) ^ n.scale ≠ 0 := zpow_ne_zero _ (by norm_num)
  unfold value
  cases n.negative <;> simp [hpow]

theorem abs_value (n : Numeral) : |n.value| = magnitude n.digits * 10 ^ n.scale := by
  have hpos : (0 : ℚ) ≤ magnitude n.digits * 10 ^ n.scale := by positivity
  unfold value
  cases n.negative <;> simp [abs_of_nonneg hpos]

/-- A number of `k + 1` digits has its leading digit `k` powers of ten above the last one. -/
theorem log_mul_zpow {m k : ℕ} (hlow : 10 ^ k ≤ m) (hhigh : m < 10 ^ (k + 1)) (e : ℤ) :
    Int.log 10 ((m : ℚ) * 10 ^ e) = e + k := by
  have hpow : (0 : ℚ) < 10 ^ e := by positivity
  have hpos : (0 : ℚ) < m * 10 ^ e :=
    mul_pos (Nat.cast_pos.2 (Nat.lt_of_lt_of_le (Nat.pow_pos (by decide)) hlow)) hpow
  have hshift : ∀ i : ℕ, ((10 ^ i : ℕ) : ℚ) * 10 ^ e = ((10 : ℕ) : ℚ) ^ (e + i) := by
    intro i
    push_cast
    rw [zpow_add₀ (by norm_num), zpow_natCast, mul_comm]
  refine le_antisymm ?_ ?_
  · rw [← Int.lt_add_one_iff, ← Int.lt_zpow_iff_log_lt (by decide) hpos]
    have hstep := mul_lt_mul_of_pos_right (Nat.cast_lt (α := ℚ).2 hhigh) hpow
    rw [hshift] at hstep
    simpa [add_assoc] using hstep
  · rw [← Int.zpow_le_iff_le_log (by decide) hpos]
    have hstep := mul_le_mul_of_nonneg_right (Nat.cast_le (α := ℚ).2 hlow) hpow.le
    rwa [hshift] at hstep

/-- The digits behind the zeros in front tell between which powers of ten a number is. -/
theorem exists_significant {n : Numeral} (h : AreDigits n.digits) (hzero : ¬ n.isZero = true) :
    ∃ d ds, n.significant = d :: ds
      ∧ 10 ^ ds.length ≤ magnitude n.digits ∧ magnitude n.digits < 10 ^ (ds.length + 1) := by
  rw [isZero, List.isEmpty_iff] at hzero
  obtain ⟨d, ds, hsig⟩ := List.exists_cons_of_ne_nil hzero
  have hdrop : n.digits.dropWhile isZeroDigit = d :: ds := hsig
  have hdigits : AreDigits (d :: ds) := fun c hc =>
    h c ((List.dropWhile_sublist isZeroDigit).subset (by rwa [hdrop]))
  have hfirst : isZeroDigit d = false := by
    have hhead := List.head?_dropWhile_not isZeroDigit n.digits
    rwa [hdrop] at hhead
  rw [← magnitude_dropWhile n.digits, hdrop]
  exact ⟨d, ds, hsig, le_magnitude (hdigits d (by simp)) hfirst ds, magnitude_lt _ hdigits⟩

/-- The power of ten of the leading digit is that of the last one, and one more
for each digit behind the leading one. -/
theorem log_abs_value {n : Numeral} (h : AreDigits n.digits) (hne : n.value ≠ 0) :
    Int.log 10 |n.value| = n.leadingPower := by
  have hzero : ¬ n.isZero = true := fun hz => hne ((value_eq_zero_iff n).2 ((isZero_iff h).1 hz))
  obtain ⟨d, ds, hsig, hlow, hhigh⟩ := exists_significant h hzero
  rw [leadingPower, if_neg hzero, abs_value, log_mul_zpow hlow hhigh, hsig]
  simp

/-! ## The range -/

/-- The value is in the range of exact decimal arithmetic. The exponent of the
leading digit of a number, or of the last digit of a zero, is bounded from above,
and the exponent of the last digit from below. -/
structure IsInRange (n : Numeral) : Prop where
  leading : n.value ≠ 0 → Int.log 10 |n.value| ≤ 999999999999999999
  zero : n.value = 0 → n.scale ≤ 999999999999999999
  last : -1999999999999999997 ≤ n.scale

/-- Counting digits decides the range. -/
theorem isRepresentable_iff {n : Numeral} (h : AreDigits n.digits) :
    n.IsRepresentable ↔ n.IsInRange := by
  by_cases hzero : n.value = 0
  · have hpower : n.leadingPower = n.scale := by
      rw [leadingPower, if_pos ((isZero_iff h).2 ((value_eq_zero_iff n).1 hzero))]
    rw [IsRepresentable, hpower]
    exact ⟨fun hr => ⟨fun hne => absurd hzero hne, fun _ => hr.1, hr.2⟩,
      fun hr => ⟨hr.zero hzero, hr.last⟩⟩
  · rw [IsRepresentable, ← log_abs_value h hzero]
    exact ⟨fun hr => ⟨fun _ => hr.1, fun hz => absurd hz hzero, hr.2⟩,
      fun hr => ⟨hr.leading hzero, hr.last⟩⟩

end FieldCheck.Numeral
