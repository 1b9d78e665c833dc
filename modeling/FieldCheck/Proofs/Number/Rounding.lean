/-
FieldCheck.Proofs.Number.Rounding — decimals that read as one number.

`Double.ofDecimal` rounds a quotient of units. Numerator and denominator may
have a common factor, and rounding does not see it (`roundCode_mul`), so zeros at
the end of a coefficient may be moved into the exponent and back
(`ofDecimal_mul_pow`). That is what a layout does when it writes a decimal.

`shortest` is searched for among decimals that are tried by reading them, so a
decimal that was found reads as the number by the way it was found. Only the
exact expansion behind them is not tried. It is a multiple of one unit, and a
number of units that has a code is rounded to it (`ofDecimal_expansion`). So every
finite number is read back from its shortest decimal (`ofDecimal_shortest`).
-/
import FieldCheck.Proofs.Number.Whole
import FieldCheck.Number.Shortest

namespace FieldCheck.Double

/-! ## Common factors -/

theorem roundHalfEven_mul_mul (n d : Nat) {k : Nat} (hk : 0 < k) :
    roundHalfEven (n * k) (d * k) = roundHalfEven n d := by
  have hquotient : n * k / (d * k) = n / d := Nat.mul_div_mul_right n d hk
  have hrest : n * k % (d * k) = n % d * k := Nat.mul_mod_mul_right k n d
  have hhalf : 2 * (n % d * k) = 2 * (n % d) * k := (Nat.mul_assoc 2 _ k).symm
  simp only [roundHalfEven, hquotient, hrest, hhalf, Nat.mul_lt_mul_right hk,
    Nat.mul_left_inj hk.ne']

/-- Rounding depends on the quotient only. -/
theorem roundCode_mul (n d : Nat) {k : Nat} (hk : 0 < k) :
    roundCode (n * k) (d * k) = roundCode n d := by
  rw [roundCode, roundCode, Nat.mul_div_mul_right n d hk, Nat.mul_right_comm d k,
    roundHalfEven_mul_mul n _ hk]

theorem ofUnits_mul (negative : Bool) (n d : Nat) {k : Nat} (hk : 0 < k) :
    ofUnits negative (n * k) (d * k) = ofUnits negative n d := by
  simp only [ofUnits, roundCode_mul n d hk]

/-! ## Zeros at the end -/

/-- The number of units that a decimal is, as a quotient. -/
def quotient (coefficient : Nat) (exponent : Int) : Nat × Nat :=
  if 0 ≤ exponent then (coefficient * 10 ^ exponent.toNat * unitsPerOne, 1)
  else (coefficient * unitsPerOne, 10 ^ exponent.natAbs)

theorem ofUnits_quotient (negative : Bool) (coefficient : Nat) (exponent : Int) :
    (if 0 ≤ exponent then ofUnits negative (coefficient * 10 ^ exponent.toNat * unitsPerOne) 1
      else ofUnits negative (coefficient * unitsPerOne) (10 ^ exponent.natAbs))
      = ofUnits negative (quotient coefficient exponent).1 (quotient coefficient exponent).2 := by
  unfold quotient
  split <;> rfl

/-- A zero more at the end, and the exponent less by one: the same quotient. -/
theorem ofUnits_quotient_mul_ten (negative : Bool) (c : Nat) (e : Int) :
    ofUnits negative (quotient (c * 10) (e - 1)).1 (quotient (c * 10) (e - 1)).2
      = ofUnits negative (quotient c e).1 (quotient c e).2 := by
  unfold quotient
  by_cases he : 0 ≤ e
  · by_cases hless : 0 ≤ e - 1
    · obtain ⟨k, rfl⟩ : ∃ k : Nat, e = k + 1 := ⟨(e - 1).toNat, by omega⟩
      have hk : ((k : Int) + 1).toNat = k + 1 := by omega
      have hk' : ((k : Int) + 1 - 1).toNat = k := by omega
      rw [if_pos hless, if_pos he, hk, hk', Nat.pow_succ, Nat.mul_assoc c 10, Nat.mul_comm 10]
    · obtain rfl : e = 0 := by omega
      have hone : ((0 : Int) - 1).natAbs = 1 := rfl
      rw [if_neg hless, if_pos he, hone]
      have hmul := ofUnits_mul negative (c * unitsPerOne) 1 (k := 10) (by decide)
      simpa [Nat.mul_right_comm c 10] using hmul
  · have hless : ¬ 0 ≤ e - 1 := by omega
    have habs : (e - 1).natAbs = e.natAbs + 1 := by omega
    rw [if_neg hless, if_neg he, habs, Nat.pow_succ, Nat.mul_right_comm c 10]
    exact ofUnits_mul negative _ _ (by decide)

theorem length_digits_mul_ten {c : Nat} (hc : c ≠ 0) :
    (Decimal.digits (c * 10)).length = (Decimal.digits c).length + 1 := by
  have hpos : 0 < (Decimal.digits c).length := List.length_pos_iff.2 (Decimal.digits_ne_nil c)
  have hle : (Decimal.digits (c * 10)).length ≤ (Decimal.digits c).length + 1 := by
    rw [Decimal.length_digits_le_iff (by omega), Nat.pow_succ]
    have hlt := (Decimal.length_digits_le_iff hpos).1 (Nat.le_refl (Decimal.digits c).length)
    exact Nat.mul_lt_mul_of_pos_right hlt (by decide)
  have hlt : ¬ (Decimal.digits (c * 10)).length ≤ (Decimal.digits c).length := by
    intro h
    rw [Decimal.length_digits_le_iff hpos] at h
    obtain ⟨l, hl⟩ : ∃ l, (Decimal.digits c).length = l + 1 :=
      ⟨_, (Nat.succ_pred_eq_of_pos hpos).symm⟩
    rw [hl, Nat.pow_succ] at h
    have hc' : c < 10 ^ l := Nat.lt_of_mul_lt_mul_right h
    rcases Nat.eq_zero_or_pos l with rfl | hl0
    · simp at hc'
      exact hc hc'
    · have := (Decimal.length_digits_le_iff hl0).2 hc'
      omega
  omega

/-- A zero at the end of a coefficient counts as much as one in the exponent. -/
theorem ofDecimal_mul_ten (negative : Bool) {c : Nat} (hc : c ≠ 0) (e : Int) :
    ofDecimal negative (c * 10) (e - 1) = ofDecimal negative c e := by
  have hplaces : e - 1 + ((Decimal.digits (c * 10)).length : Int)
      = e + (Decimal.digits c).length := by
    rw [length_digits_mul_ten hc]
    omega
  have hzero : c * 10 = 0 ↔ c = 0 := by omega
  simp only [ofDecimal, hplaces, hzero, ofUnits_quotient, ofUnits_quotient_mul_ten]

theorem ofDecimal_mul_pow (negative : Bool) {c : Nat} (hc : c ≠ 0) (e : Int) (k : Nat) :
    ofDecimal negative (c * 10 ^ k) (e - k) = ofDecimal negative c e := by
  induction k with
  | zero => simp
  | succ k ih =>
    have hne : c * 10 ^ k ≠ 0 := Nat.mul_ne_zero hc (Nat.pow_pos (by decide)).ne'
    rw [← ih, ← ofDecimal_mul_ten negative hne, Nat.pow_succ, Nat.mul_assoc]
    congr 1
    push_cast
    omega

@[simp] theorem ofDecimal_zero (negative : Bool) (e : Int) :
    ofDecimal negative 0 e = .finite negative 0 (by decide) := by
  simp [ofDecimal]

/-! ## Signs -/

theorem ofUnits_neg (num den : Nat) : ofUnits true num den = (ofUnits false num den).neg := by
  unfold ofUnits
  split <;> rfl

theorem ofDecimal_neg (c : Nat) (e : Int) : ofDecimal true c e = (ofDecimal false c e).neg := by
  simp only [ofDecimal, ofUnits_neg]
  split
  · rfl
  split
  · rfl
  split <;> rfl

/-! ## The shortest decimal -/

theorem eq_of_readsAs {code : Nat} {d : Scientific} (h : code < codeLimit)
    (hd : readsAs code d = true) :
    ofDecimal false d.coefficient d.exponent = .finite false code h := by
  unfold readsAs at hd
  split at hd
  · rename_i c hc heq
    obtain rfl : c = code := of_decide_eq_true hd
    exact heq
  · cases hd

theorem mul_five_pow (u n : Nat) : u * 5 ^ n * 2 ^ n = u * 10 ^ n := by
  rw [Nat.mul_assoc, ← Nat.mul_pow]

/-- A number of units that has a code, as a quotient with a power of ten. -/
theorem roundCode_units_mul (code n : Nat) : roundCode (units code * 10 ^ n) (10 ^ n) = code := by
  have hscale := roundCode_mul (units code) 1 (Nat.pow_pos (n := n) (by decide : 0 < 10))
  rw [Nat.one_mul] at hscale
  rw [hscale, roundCode_units]

/-- The digits of the exact expansion of a magnitude are as many as those of a
number in the finite range. -/
theorem length_expansion {code : Nat} (hne : units code ≠ 0) (h : code < codeLimit) :
    674 ≤ (Decimal.digits (expansion code).coefficient).length
      ∧ (Decimal.digits (expansion code).coefficient).length ≤ 1474 := by
  constructor
  · refine Nat.lt_of_not_le fun hle => ?_
    rw [Decimal.length_digits_le_iff (by decide)] at hle
    have hpow : 10 ^ 673 ≤ 5 ^ 1074 := by decide +kernel
    have hone : 5 ^ 1074 ≤ (expansion code).coefficient := Nat.le_mul_of_pos_left _ (by omega)
    omega
  · rw [Decimal.length_digits_le_iff (by decide)]
    have hexp : code / 2 ^ 52 - 1 ≤ 2045 := by
      have hbound : code < 2047 * 2 ^ 52 := h
      omega
    have hpow : 2 ^ 53 * 2 ^ 2045 * 5 ^ 1074 < 10 ^ 1474 := by decide +kernel
    have hfive : 0 < 5 ^ 1074 := by decide +kernel
    exact Nat.lt_trans (Nat.mul_lt_mul_of_pos_right (units_lt hexp) hfive) hpow

/-- The exact expansion reads as the number. -/
theorem ofDecimal_expansion {code : Nat} (h : code < codeLimit) :
    ofDecimal false (expansion code).coefficient (expansion code).exponent
      = .finite false code h := by
  by_cases hne : units code = 0
  · have hcode : code = 0 := by
      rw [← roundCode_units code, hne]
      rfl
    subst hcode
    have hzero : (expansion 0).coefficient = 0 := Nat.mul_eq_zero.2 (.inl hne)
    rw [hzero, ofDecimal_zero]
  · have hlength := length_expansion hne h
    have hfactor : (expansion code).coefficient * unitsPerOne = units code * 10 ^ 1074 := by
      rw [expansion, unitsPerOne]
      exact mul_five_pow (units code) 1074
    have hround := roundCode_units_mul code 1074
    have hexponent : (expansion code).exponent = -1074 := rfl
    have habs : (-1074 : Int).natAbs = 1074 := rfl
    have hcoefficient : (expansion code).coefficient ≠ 0 := by
      intro hzero
      rw [hzero] at hlength
      simp [Decimal.digits] at hlength
    rw [ofDecimal, hexponent]
    -- The exponent is in range and negative, so the quotient is the one of `hfactor`.
    rw [if_neg (by simp only [hcoefficient, exponentBound, false_or]; omega),
      if_neg (by simp only [exponentBound]; omega), if_neg (by omega), hfactor, habs, ofUnits]
    simp only [hround, h, dif_pos]

/-- Every finite number is read back from its shortest decimal. -/
theorem ofDecimal_shortest (negative : Bool) {code : Nat} (h : code < codeLimit) :
    ofDecimal negative (shortest code).coefficient (shortest code).exponent
      = .finite negative code h := by
  have hpositive : ofDecimal false (shortest code).coefficient (shortest code).exponent
      = .finite false code h := by
    rw [shortest]
    cases hfind : (candidates code).find? (readsAs code) with
    | none => exact ofDecimal_expansion h
    | some d => exact eq_of_readsAs h (List.find?_some hfind)
  cases negative with
  | false => exact hpositive
  | true => rw [ofDecimal_neg, hpositive]; rfl

end FieldCheck.Double
