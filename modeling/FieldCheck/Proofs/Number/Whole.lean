/-
FieldCheck.Proofs.Number.Whole — numbers whose exact value is a whole number.

`Numeral.value` is the exact value of a decimal literal, and `Double.value?`
that of a finite floating-point number, both as fractions. The decisions of
the library never compute with fractions: a numeral is called whole by the
zeros at the end of its digits, a floating-point number by a remainder. The
main statements say that these decisions are exact.

* `hasNoFraction_iff` — a numeral is whole by its zeros exactly when its value
  is a whole number, for any number of digits and any exponent.
* `toInt?_eq_some_iff` — a floating-point number is turned into a whole number
  exactly when that is its value.

A power of ten divides a number exactly when that many zeros stand at the end
of its digits (`pow_dvd_magnitude_iff`), unless the number is zero, which every
power divides. That is why a zero is a case of its own.
-/
import FieldCheck.Number.Double
import FieldCheck.Proofs.Number.Literal
import Mathlib.Algebra.Order.Field.Rat
import Mathlib.Data.List.Induction
import Mathlib.Data.List.TakeWhile
import Mathlib.Tactic.FieldSimp
import Mathlib.Tactic.Ring

namespace FieldCheck

namespace Numeral

/-! ## Digits and powers of ten -/

/-- A digit that stands for zero. -/
def isZeroDigit (d : Char) : Bool := Text.digitValue d == some 0

theorem magnitude_append_singleton (ds : List Char) (d : Char) :
    magnitude (ds ++ [d]) = 10 * magnitude ds + (Text.digitValue d).getD 0 := by
  simp [magnitude, List.foldl_append]

/-- How many zeros stand at the end. -/
def zerosAtEnd (ds : List Char) : Nat := (ds.reverse.takeWhile isZeroDigit).length

theorem zerosAtEnd_append_singleton (ds : List Char) (d : Char) :
    zerosAtEnd (ds ++ [d]) = if isZeroDigit d then zerosAtEnd ds + 1 else 0 := by
  rw [zerosAtEnd, List.reverse_append, List.reverse_singleton, List.singleton_append,
    List.takeWhile_cons]
  split <;> rfl

theorem digit_cases {d : Char} (h : Text.isDigit d = true) :
    (isZeroDigit d = true ∧ (Text.digitValue d).getD 0 = 0)
      ∨ (isZeroDigit d = false ∧ 0 < (Text.digitValue d).getD 0
        ∧ (Text.digitValue d).getD 0 < 10) := by
  obtain ⟨v, hv⟩ := Option.isSome_iff_exists.1 h
  have hlt := Text.digitValue_lt hv
  cases v with
  | zero => exact .inl ⟨by simp [isZeroDigit, hv], by simp [hv]⟩
  | succ v => exact .inr ⟨by simp [isZeroDigit, hv], by simp [hv], by simpa [hv] using hlt⟩

/-- Digits stand for zero exactly when all of them are zeros. -/
theorem magnitude_eq_zero_iff {ds : List Char} (hds : AreDigits ds) :
    magnitude ds = 0 ↔ ∀ d ∈ ds, isZeroDigit d = true := by
  induction ds using List.reverseRecOn with
  | nil => simp [magnitude]
  | append_singleton ds d ih =>
    have ih := ih fun c hc => hds c (by simp [hc])
    rw [magnitude_append_singleton]
    rcases digit_cases (hds d (by simp)) with ⟨hz, hv⟩ | ⟨hz, hv, -⟩
    · simp only [hv, List.mem_append, List.mem_singleton]
      constructor
      · rintro h c (hc | rfl)
        · exact ih.1 (by omega) c hc
        · exact hz
      · intro h
        have := ih.2 fun c hc => h c (.inl hc)
        omega
    · constructor
      · intro h
        omega
      · intro h
        have := h d (by simp)
        simp [hz] at this

/-- A power of ten divides a number that is not zero exactly when that many
zeros stand at the end of its digits. -/
theorem pow_dvd_magnitude_iff {ds : List Char} (hds : AreDigits ds) (hne : magnitude ds ≠ 0)
    (k : Nat) : 10 ^ k ∣ magnitude ds ↔ k ≤ zerosAtEnd ds := by
  induction ds using List.reverseRecOn generalizing k with
  | nil => simp [magnitude] at hne
  | append_singleton ds d ih =>
    have hds' : AreDigits ds := fun c hc => hds c (by simp [hc])
    rw [magnitude_append_singleton] at hne ⊢
    rw [zerosAtEnd_append_singleton]
    cases k with
    | zero => simp
    | succ k =>
      rcases digit_cases (hds d (by simp)) with ⟨hz, hv⟩ | ⟨hz, hpos, hlt⟩
      · rw [hv] at hne ⊢
        have hds0 : magnitude ds ≠ 0 := fun e => hne (by rw [e])
        rw [if_pos hz, Nat.add_zero (10 * magnitude ds), Nat.pow_succ',
          Nat.mul_dvd_mul_iff_left (by decide : 0 < 10), ih hds' hds0]
        omega
      · rw [hz]
        simp only [Bool.false_eq_true, if_false]
        constructor
        · intro h
          have hten : 10 ∣ 10 * magnitude ds + (Text.digitValue d).getD 0 :=
            (Dvd.intro (10 ^ k) (Nat.pow_succ' (m := 10) (n := k)).symm).trans h
          omega
        · intro h
          omega

/-! ## The value of a numeral -/

/-- The exact value of a numeral. -/
def value (n : Numeral) : ℚ :=
  (if n.negative then -1 else 1) * (magnitude n.digits * 10 ^ n.scale)

/-- A number moved by a power of ten is whole exactly when it is moved to the
left or the power divides it. -/
theorem exists_mul_zpow_eq_iff (m : Nat) (s : Int) :
    (∃ k : ℤ, (m : ℚ) * 10 ^ s = k) ↔ 10 ^ (-s).toNat ∣ m := by
  rcases Int.le_total 0 s with hs | hs
  · obtain ⟨t, rfl⟩ := Int.eq_ofNat_of_zero_le hs
    have hzero : (-(t : Int)).toNat = 0 := by omega
    rw [hzero, Nat.pow_zero]
    refine ⟨fun _ => Nat.one_dvd m, fun _ => ⟨m * 10 ^ t, ?_⟩⟩
    push_cast
    rw [zpow_natCast]
  · obtain ⟨t, ht⟩ := Int.eq_ofNat_of_zero_le (Int.neg_nonneg.2 hs)
    obtain rfl : s = -(t : Int) := by omega
    have hpow : (10 : ℚ) ^ t ≠ 0 := pow_ne_zero t (by norm_num)
    rw [neg_neg, Int.toNat_natCast, zpow_neg, zpow_natCast]
    constructor
    · rintro ⟨k, hk⟩
      have hm : (m : ℤ) = k * 10 ^ t := by
        have : (m : ℚ) = k * 10 ^ t := by rw [← hk]; field_simp
        exact_mod_cast this
      have hdvd : ((10 ^ t : Nat) : ℤ) ∣ (m : ℤ) := ⟨k, by rw [hm]; push_cast; ring⟩
      exact_mod_cast hdvd
    · rintro ⟨q, rfl⟩
      exact ⟨q, by push_cast; field_simp⟩

theorem isZero_iff {n : Numeral} (h : AreDigits n.digits) :
    n.isZero = true ↔ magnitude n.digits = 0 := by
  rw [magnitude_eq_zero_iff h, isZero, significant, List.isEmpty_iff]
  exact List.dropWhile_eq_nil_iff

/-- A numeral is whole by its zeros exactly when its value is a whole number. -/
theorem hasNoFraction_iff {n : Numeral} (h : AreDigits n.digits) :
    n.HasNoFraction ↔ ∃ k : ℤ, n.value = k := by
  have hsign : (∃ k : ℤ, n.value = k) ↔ ∃ k : ℤ, (magnitude n.digits : ℚ) * 10 ^ n.scale = k := by
    unfold value
    cases n.negative
    · simp
    · constructor
      · rintro ⟨k, hk⟩
        exact ⟨-k, by push_cast; rw [← hk]; simp⟩
      · rintro ⟨k, hk⟩
        exact ⟨-k, by push_cast; rw [← hk]; simp⟩
  rw [hsign, exists_mul_zpow_eq_iff, HasNoFraction, isZero_iff h]
  by_cases hzero : magnitude n.digits = 0
  · simp [hzero]
  · rw [pow_dvd_magnitude_iff h hzero]
    have htrail : n.trailingZeros = zerosAtEnd n.digits := rfl
    rw [htrail]
    omega

end Numeral

namespace Double

/-! ## The value of a floating-point number -/

/-- The exact value of a finite number. -/
def value? : Double → Option ℚ
  | .finite negative code _ => some (signedUnits negative code / unitsPerOne)
  | _ => none

theorem unitsPerOne_pos : 0 < unitsPerOne := by
  unfold unitsPerOne
  apply Nat.pow_pos
  decide

/-- A number of units without a remainder, as a whole number of ones. -/
theorem div_units_eq_iff (u : Nat) (k : Int) :
    (u % unitsPerOne = 0 ∧ ((u / unitsPerOne : Nat) : Int) = k) ↔ (u : Int) = k * unitsPerOne := by
  have hone : (unitsPerOne : Int) ≠ 0 := by exact_mod_cast unitsPerOne_pos.ne'
  constructor
  · rintro ⟨hmod, rfl⟩
    exact_mod_cast (Nat.div_mul_cancel (Nat.dvd_of_mod_eq_zero hmod)).symm
  · intro h
    constructor
    · have hmod : ((u % unitsPerOne : Nat) : Int) = 0 := by
        rw [Int.natCast_emod, h, Int.mul_emod_left]
      exact_mod_cast hmod
    · rw [Int.natCast_ediv, h, Int.mul_ediv_cancel _ hone]

theorem signed_eq_iff (negative : Bool) (n k : Int) :
    (if negative then -n else n) = k ↔ n = if negative then -k else k := by
  cases negative
  · exact Iff.rfl
  · exact neg_eq_iff_eq_neg

theorem toInt?_finite_eq_some_iff {negative : Bool} {code : Nat} (h : code < codeLimit) (k : Int) :
    toInt? (.finite negative code h) = some k ↔ signedUnits negative code = k * unitsPerOne := by
  have hsplit : toInt? (.finite negative code h) = some k ↔ units code % unitsPerOne = 0 ∧
      ((units code / unitsPerOne : Nat) : Int) = if negative then -k else k := by
    rw [toInt?]
    by_cases hmod : units code % unitsPerOne = 0
    · rw [if_pos hmod, Option.some.injEq, signed_eq_iff]
      exact ⟨fun hk => ⟨hmod, hk⟩, fun hk => hk.2⟩
    · rw [if_neg hmod]
      exact ⟨fun hk => absurd hk (Option.some_ne_none k).symm, fun hk => absurd hk.1 hmod⟩
  rw [hsplit, div_units_eq_iff, signedUnits, signed_eq_iff]
  cases negative
  · exact Iff.rfl
  · rw [if_pos rfl, if_pos rfl, Int.neg_mul]

/-- A number is turned into a whole number exactly when that is its value. -/
theorem toInt?_eq_some_iff (x : Double) (k : Int) :
    x.toInt? = some k ↔ x.value? = some (k : ℚ) := by
  cases x with
  | nan => simp [toInt?, value?]
  | infinite negative => simp [toInt?, value?]
  | finite negative code bounded =>
    have hone : (unitsPerOne : ℚ) ≠ 0 := by exact_mod_cast unitsPerOne_pos.ne'
    have hvalue : value? (.finite negative code bounded) = some (k : ℚ)
        ↔ signedUnits negative code = k * unitsPerOne := by
      rw [value?, Option.some.injEq, div_eq_iff hone]
      exact_mod_cast Iff.rfl
    rw [hvalue, toInt?_finite_eq_some_iff]

/-- A number without a fraction is one that is turned into a whole number. -/
theorem isWhole_iff (x : Double) : x.isWhole = true ↔ ∃ k, x.toInt? = some k := by
  cases x with
  | nan => simp [isWhole, toInt?]
  | infinite negative => simp [isWhole, toInt?]
  | finite negative code bounded =>
    rw [isWhole, decide_eq_true_iff, toInt?]
    by_cases hmod : units code % unitsPerOne = 0
    · rw [if_pos hmod]
      exact ⟨fun _ => ⟨_, rfl⟩, fun _ => hmod⟩
    · rw [if_neg hmod]
      refine ⟨fun h => absurd h hmod, fun h => ?_⟩
      obtain ⟨k, hk⟩ := h
      cases hk

theorem units_lt {code e : Nat} (h : code / 2 ^ 52 - 1 ≤ e) : units code < 2 ^ 53 * 2 ^ e := by
  have hpos : 0 < 2 ^ e := Nat.two_pow_pos e
  unfold units
  split
  · rename_i hsmall
    exact Nat.lt_of_lt_of_le hsmall (Nat.le_mul_of_pos_right _ hpos)
  · have hmod : code % 2 ^ 52 < 2 ^ 52 := Nat.mod_lt _ (Nat.two_pow_pos 52)
    calc (2 ^ 52 + code % 2 ^ 52) * 2 ^ (code / 2 ^ 52 - 1)
        < 2 ^ 53 * 2 ^ (code / 2 ^ 52 - 1) :=
          Nat.mul_lt_mul_of_pos_right (by omega) (Nat.two_pow_pos _)
      _ ≤ 2 ^ 53 * 2 ^ e := Nat.mul_le_mul_left _ (Nat.pow_le_pow_right (by decide) h)

/-- Powers of two with few enough factors are less than a power of ten. -/
theorem two_pow_mul_le {d e n : Nat} (h : d + e ≤ n) : 2 ^ d * 2 ^ e ≤ 10 ^ n := by
  rw [← Nat.pow_add]
  exact (Nat.pow_le_pow_left (by decide) _).trans (Nat.pow_le_pow_right (by decide) h)

/-- Every finite magnitude has fewer decimal digits than the limit. -/
theorem units_lt_digitLimit {code : Nat} (bounded : code < codeLimit) :
    units code < 10 ^ Decimal.digitLimit := by
  -- The greatest exponent is kept as a name, so that no power is computed.
  obtain ⟨e, hcode, hlimit⟩ :
      ∃ e, code / 2 ^ 52 - 1 ≤ e ∧ 53 + e ≤ Decimal.digitLimit := by
    have hbound : code < 2047 * 2 ^ 52 := bounded
    exact ⟨2045, by omega, by decide⟩
  exact Nat.lt_of_lt_of_le (units_lt hcode) (two_pow_mul_le hlimit)

@[simp] theorem natAbs_signedUnits (negative : Bool) (code : Nat) :
    (signedUnits negative code).natAbs = units code := by
  cases negative <;> simp [signedUnits]

/-- The whole number that a floating-point number is equal to is short enough to be written. -/
theorem isWritable_of_toInt? {x : Double} {k : Int} (h : x.toInt? = some k) :
    Decimal.isWritable k = true := by
  cases x with
  | nan => simp [toInt?] at h
  | infinite negative => simp [toInt?] at h
  | finite negative code bounded =>
    have habs : k.natAbs ≤ units code := by
      rw [toInt?_finite_eq_some_iff] at h
      rw [← natAbs_signedUnits negative code, h, Int.natAbs_mul, Int.natAbs_natCast]
      exact Nat.le_mul_of_pos_right _ unitsPerOne_pos
    rw [Decimal.isWritable, decide_eq_true_iff]
    exact Nat.lt_of_le_of_lt habs (units_lt_digitLimit bounded)

end Double

end FieldCheck
