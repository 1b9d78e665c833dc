/-
FieldCheck.Proofs.FieldType.Integers — whole numbers in each of their forms.

A whole number can be given as such, as a floating-point number or as a decimal
literal, and a bound limits its length.

* `isIntegerValued_text` — a text counts as a whole number exactly when it is a
  literal whose exact value is one, within the range of decimal arithmetic. No
  digit is lost on the way: zeros at the end and exponents that cancel them are
  looked at, and nothing is rounded.
* `accepts_integer_range` — a bound on the length is a bound on the number. A minus
  sign takes one character, so below zero the bound is that of one digit less. The
  decimal form of a number, as a text, and a floating-point number that is equal
  to it are treated like the number.

The length of a whole number is only known where it can be written
(`Decimal.isWritable`); a floating-point number that is whole always can.
-/
import FieldCheck.Proofs.Descriptor.Meaning
import FieldCheck.Proofs.Number.Range

namespace FieldCheck

/-! ## Texts -/

namespace Value

theorem isIntegral_iff_isInRange (s : String) :
    Numeral.isIntegral s = true ↔
      ∃ (l : Numeral) (k : ℤ), l.Spells s.toList ∧ l.value = k ∧ l.IsInRange := by
  rw [isIntegral_iff]
  refine exists₂_congr fun l k => ?_
  constructor
  · rintro ⟨hs, hrange, hvalue⟩
    exact ⟨hs, hvalue, (Numeral.isRepresentable_iff (Numeral.areDigits_of_spells hs)).1 hrange⟩
  · rintro ⟨hs, hvalue, hrange⟩
    exact ⟨hs, (Numeral.isRepresentable_iff (Numeral.areDigits_of_spells hs)).2 hrange, hvalue⟩

/-- Digits that end in zeros have at least as many zeros at their end. -/
theorem le_trailingZeros {l : Numeral} {front zeros : List Char} (hdigits : l.digits = front ++ zeros)
    (hzeros : ∀ d ∈ zeros, Text.digitValue d = some 0) : zeros.length ≤ l.trailingZeros := by
  have hall : ∀ d ∈ zeros.reverse, (Text.digitValue d == some 0) = true := by
    intro d hd
    simpa using hzeros d (List.mem_reverse.1 hd)
  rw [Numeral.trailingZeros, hdigits, List.reverse_append, List.takeWhile_append_of_pos hall,
    List.length_append, List.length_reverse]
  exact Nat.le_add_right _ _

/-- A text counts as a whole number exactly when it is a literal, with or without
blanks around it, whose exact value is a whole number in the range of decimal
arithmetic. In particular it does when all digits are zeros that the exponent
leaves behind the point, however many there are. -/
theorem isIntegerValued_text (s : String) :
    ((text s).isIntegerValued = true ↔
      ∃ (l : Numeral) (k : ℤ), l.Spells s.toList ∧ l.value = k ∧ l.IsInRange)
    ∧ ∀ (l : Numeral) (front zeros : List Char), l.Spells s.toList → l.IsInRange →
        l.digits = front ++ zeros → (∀ d ∈ zeros, Text.digitValue d = some 0) →
        -l.scale ≤ zeros.length → (text s).isIntegerValued = true := by
  refine ⟨isIntegral_iff_isInRange s, fun l front zeros hs hrange hdigits hzeros hscale => ?_⟩
  have hlength := le_trailingZeros hdigits hzeros
  have hwhole : l.HasNoFraction := .inr (by omega)
  obtain ⟨k, hk⟩ := (Numeral.hasNoFraction_iff (Numeral.areDigits_of_spells hs)).1 hwhole
  exact (isIntegral_iff_isInRange s).2 ⟨l, k, hs, hk, hrange⟩

/-- Two zeros at the end take back an exponent of minus two. -/
theorem isIntegerValued_text_fifteen :
    (⟨false, "1500".toList, [], -2⟩ : Numeral).Spells "1500e-2".toList
    ∧ (⟨false, "1500".toList, [], -2⟩ : Numeral).IsInRange
    ∧ (text "1500e-2").isIntegerValued = true := by
  have hs : (⟨false, "1500".toList, [], -2⟩ : Numeral).Spells "1500e-2".toList :=
    Numeral.spells_of_scan (by decide +kernel)
  have hrange : (⟨false, "1500".toList, [], -2⟩ : Numeral).IsInRange :=
    (Numeral.isRepresentable_iff (Numeral.areDigits_of_spells hs)).1 (by decide +kernel)
  have hzero : Text.digitValue '0' = some 0 := by decide +kernel
  exact ⟨hs, hrange, (isIntegerValued_text "1500e-2").2 _ ['1', '5'] ['0', '0'] hs hrange
    (by decide +kernel) (by simp [hzero]) (by decide +kernel)⟩

end Value

/-! ## Lengths -/

namespace Decimal

theorem length_digits_pos (n : Nat) : 0 < (digits n).length :=
  List.length_pos_of_ne_nil (digits_ne_nil n)

/-- A bound on the length of a number is a bound on the number. -/
theorem length_chars_le_iff (n : Int) (k : Nat) :
    (chars n).length ≤ k ↔ 1 ≤ k ∧ -10 ^ (k - 1) < n ∧ n < 10 ^ k := by
  have hpos := length_digits_pos n.natAbs
  have hcast : ∀ m : Nat, ((10 ^ m : Nat) : Int) = 10 ^ m := fun m => Int.natCast_pow 10 m
  cases k with
  | zero =>
    refine ⟨fun h => ?_, fun h => absurd h.1 (by decide)⟩
    rw [chars] at h
    split at h
    · simp at h
    · omega
  | succ k =>
    have hlow := hcast k
    have hhigh := hcast (k + 1)
    have hlowpos : 0 < 10 ^ k := Nat.pow_pos (by decide)
    have hhighpos : 0 < 10 ^ (k + 1) := Nat.pow_pos (by decide)
    rw [chars, Nat.add_sub_cancel, ← hlow, ← hhigh]
    split
    · rw [List.length_cons, Nat.succ_le_succ_iff]
      cases k with
      | zero =>
        constructor
        · omega
        · intro h
          simp only [Nat.pow_zero] at h
          omega
      | succ k =>
        rw [length_digits_le_iff (Nat.succ_pos k)]
        omega
    · rw [length_digits_le_iff (Nat.succ_pos k)]
      omega

/-- The literal that is the decimal form of a number. -/
def numeral (n : Int) : Numeral := ⟨decide (n < 0), digits n.natAbs, [], 0⟩

theorem spells_numeral (n : Int) : (numeral n).Spells (text n).toList := by
  have hdigits : Numeral.AreDigits (digits n.natAbs) := fun c hc =>
    Text.isDigit_of_ascii (isDigit_of_mem_digits hc)
  have hnone : Numeral.AreBlanks [] := by simp [Numeral.AreBlanks]
  have hmantissa : Numeral.Mantissa (digits n.natAbs) (digits n.natAbs) [] :=
    .whole (digits_ne_nil _) hdigits
  have hspells : ∀ sign, Numeral.Sign sign (decide (n < 0)) →
      (numeral n).Spells (sign ++ digits n.natAbs) := by
    intro sign hsign
    simpa using Numeral.Spells.literal (n := numeral n) hnone hsign hmantissa .absent hnone
  rw [text, String.toList_ofList, chars]
  split
  · rename_i h
    exact hspells ['-'] (by simpa [h] using Numeral.Sign.minus)
  · rename_i h
    exact hspells [] (by simpa [h] using Numeral.Sign.absent)

/-- The decimal form of a number that can be written is read as a whole number. -/
theorem isIntegral_text {n : Int} (h : isWritable n = true) : Numeral.isIntegral (text n) = true := by
  have hscale : (numeral n).scale = 0 := rfl
  have hlength : (numeral n).significant.length ≤ digitLimit := by
    refine Nat.le_trans (List.dropWhile_sublist _).length_le ?_
    rw [Numeral.digits, numeral, List.append_nil]
    exact (digits_le_limit_iff n).2 h
  have hlimit : digitLimit = 4300 := rfl
  have hrange : (numeral n).IsRepresentable := by
    rw [Numeral.IsRepresentable, Numeral.leadingPower, hscale, Numeral.greatestPower,
      Numeral.leastPower]
    split <;> omega
  have hwhole : (numeral n).HasNoFraction := .inr (by rw [hscale]; omega)
  rw [Numeral.isIntegral, Numeral.scan_of_spells (spells_numeral n)]
  exact (Numeral.isInteger_iff _).2 ⟨hrange, hwhole⟩

end Decimal

/-! ## Acceptance -/

namespace FieldType

open Value

theorem accepts_integer_int {n : Int} (h : Decimal.isWritable n = true) (k : Nat) :
    integer.accepts (some k) (.int n) = .ok (decide ((Decimal.text n).length ≤ k)) := by
  have hlength : (Value.int n).integerLength = .ok (Decimal.text n).length :=
    decimalLength_of_isWritable h
  simp [accepts, isIntegerValued, integerWithin, hlength, Except.map, within]

theorem accepts_integer_text {n : Int} (h : Decimal.isWritable n = true) (k : Nat) :
    integer.accepts (some k) (.text (Decimal.text n))
      = .ok (decide ((Decimal.text n).length ≤ k)) := by
  have hwhole : (Value.text (Decimal.text n)).isIntegerValued = true := Decimal.isIntegral_text h
  simp [accepts, hwhole, integerWithin, integerLength, Except.map, within]

/-- A floating-point number that is whole is accepted like the whole number. -/
theorem accepts_integer_float {x : Double} {n : Int} (h : x.toInt? = some n) (bound : Option Int) :
    integer.accepts bound (.float x) = integer.accepts bound (.int n) := by
  have hwhole : (Value.float x).isIntegerValued = true := (Double.isWhole_iff x).2 ⟨n, h⟩
  have hlength : (Value.float x).integerLength = (Value.int n).integerLength := by
    rw [integerLength, integerLength, h, Option.getD_some]
  rw [accepts, accepts, if_pos hwhole, if_pos (show (Value.int n).isIntegerValued = true from rfl)]
  cases bound with
  | none => rfl
  | some k => rw [integerWithin, integerWithin, hlength]

/-- A bound on the length of a whole number is a bound on the number itself, and
the same one for its decimal form and for a floating-point number that is equal to
it. Other floating-point numbers are refused, infinite ones and `nan` among them,
with a bound and without one. -/
theorem accepts_integer_range :
    (∀ (n : Int) (k : Nat), n.natAbs < 10 ^ Decimal.digitLimit →
      integer.accepts (some k) (.int n) = .ok (decide (1 ≤ k ∧ -10 ^ (k - 1) < n ∧ n < 10 ^ k))
      ∧ integer.accepts (some k) (.text (Decimal.text n)) = integer.accepts (some k) (.int n))
    ∧ (∀ (x : Double) (n : Int), x.value? = some (n : ℚ) → n.natAbs < 10 ^ Decimal.digitLimit
      ∧ ∀ k : Nat, integer.accepts (some k) (.float x) = integer.accepts (some k) (.int n))
    ∧ ∀ x : Double, (∀ n : Int, x.value? ≠ some (n : ℚ)) →
      ∀ bound, integer.accepts bound (.float x) = .ok false := by
  refine ⟨fun n k hn => ?_, fun x n hx => ?_, fun x hx bound => ?_⟩
  · have hwritable : Decimal.isWritable n = true := decide_eq_true hn
    have hlength : (Decimal.text n).length = (Decimal.chars n).length := by simp [Decimal.text]
    rw [accepts_integer_int hwritable, accepts_integer_text hwritable, hlength]
    exact ⟨by rw [decide_eq_decide.2 (Decimal.length_chars_le_iff n k)], rfl⟩
  · have hn := (Double.toInt?_eq_some_iff x n).2 hx
    exact ⟨of_decide_eq_true (Double.isWritable_of_toInt? hn),
      fun k => accepts_integer_float hn (some k)⟩
  · have hwhole : (Value.float x).isIntegerValued = false := by
      rw [isIntegerValued, Bool.eq_false_iff]
      intro h
      obtain ⟨n, hn⟩ := (Double.isWhole_iff x).1 h
      exact hx n ((Double.toInt?_eq_some_iff x n).1 hn)
    simp [accepts, hwhole]

/-- Three characters allow for minus ninety-nine, one for the negative zero, and
none for a half. -/
theorem accepts_integer_range_three :
    integer.accepts (some (3 : Nat)) (.int (-99)) = .ok true
    ∧ integer.accepts (some (3 : Nat)) (.text (Decimal.text (-99))) = .ok true
    ∧ integer.accepts (some (3 : Nat)) (.int (-100)) = .ok false
    ∧ integer.accepts (some (1 : Nat)) (.float (.finite true 0 (by decide))) = .ok true
    ∧ integer.accepts none (.float (.finite false 0x3FE0000000000000 (by decide))) = .ok false := by
  have hlow := accepts_integer_range.1 (-99) 3 (by decide +kernel)
  have hover := accepts_integer_range.1 (-100) 3 (by decide +kernel)
  have hint : integer.accepts (some (3 : Nat)) (.int (-99)) = .ok true := hlow.1
  refine ⟨hint, hlow.2.trans hint, hover.1, ?_, ?_⟩
  · have hzero : (Double.finite true 0 (by decide)).value? = some ((0 : Int) : ℚ) :=
      (Double.toInt?_eq_some_iff _ 0).1 (by decide +kernel)
    refine ((accepts_integer_range.2.1 _ 0 hzero).2 1).trans ?_
    exact (accepts_integer_range.1 0 1 (by decide +kernel)).1
  · refine accepts_integer_range.2.2 _ (fun n hn => ?_) none
    have hnone : (Double.finite false 0x3FE0000000000000 (by decide)).toInt? = none := by
      decide +kernel
    rw [(Double.toInt?_eq_some_iff _ n).2 hn] at hnone
    cases hnone

end FieldType

end FieldCheck
