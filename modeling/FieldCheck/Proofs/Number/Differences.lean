/-
FieldCheck.Proofs.Number.Differences — differences between times.

A difference is rounded, and rounding keeps the order (`roundCode_mono`). A number with
more binary digits than another one loses more of them, but what is left of it has at
least the value of what is left of the other.

So of two times the earlier one is not closer to a third time, in terms of rounded
differences: if a time is at least five minutes after one time, it is so after all times
that are not later than that one (`ltInt_sub_of_le`).
-/
import FieldCheck.Service
import FieldCheck.Proofs.Number.Order

namespace FieldCheck

namespace Double

/-! ## Rounding keeps the order -/

theorem le_roundHalfEven (num den : Nat) : num / den ≤ roundHalfEven num den := by
  unfold roundHalfEven
  dsimp only
  split <;> omega

theorem roundHalfEven_le (num den : Nat) : roundHalfEven num den ≤ num / den + 1 := by
  unfold roundHalfEven
  dsimp only
  split <;> omega

theorem roundHalfEven_mono {a b : Nat} (h : a ≤ b) (d : Nat) :
    roundHalfEven a d ≤ roundHalfEven b d := by
  rcases Nat.lt_or_ge (a / d) (b / d) with hlt | hge
  · calc roundHalfEven a d ≤ a / d + 1 := roundHalfEven_le a d
      _ ≤ b / d := hlt
      _ ≤ roundHalfEven b d := le_roundHalfEven b d
  · -- The quotients are the same, so the rests are in order.
    have hquotient : a / d = b / d := Nat.le_antisymm (Nat.div_le_div_right h) hge
    have hrest : a % d ≤ b % d := by
      have ha := Nat.div_add_mod a d
      have hb := Nat.div_add_mod b d
      rw [hquotient] at ha
      omega
    unfold roundHalfEven
    dsimp only
    rw [hquotient]
    split <;> split <;> omega

theorem lt_two_pow_dropped (n : Nat) : n < 2 ^ (53 + dropped n) := by
  unfold dropped
  split
  · assumption
  · rename_i hn
    have hne : n ≠ 0 := by omega
    have hlog : 53 ≤ n.log2 := (Nat.le_log2 hne).2 (Nat.not_lt.1 hn)
    have hexp : 53 + (n.log2 - 52) = n.log2 + 1 := by omega
    rw [hexp]
    exact Nat.lt_log2_self

theorem two_pow_dropped_le {n : Nat} (h : 0 < dropped n) : 2 ^ (52 + dropped n) ≤ n := by
  unfold dropped at h ⊢
  split at h
  · omega
  · rename_i hn
    have hne : n ≠ 0 := by omega
    rw [if_neg hn]
    have hexp : 52 + (n.log2 - 52) = n.log2 := by omega
    rw [hexp]
    exact Nat.log2_self_le hne

theorem dropped_mono {a b : Nat} (h : a ≤ b) : dropped a ≤ dropped b := by
  by_contra hlt
  rw [Nat.not_le] at hlt
  have hle := two_pow_dropped_le (Nat.zero_lt_of_lt hlt)
  have hpow : 2 ^ (53 + dropped b) ≤ 2 ^ (52 + dropped a) :=
    Nat.pow_le_pow_right (by decide) (by omega)
  have hb := lt_two_pow_dropped b
  omega

/-- Rounding keeps the order of magnitudes. -/
theorem roundCode_mono {a b : Nat} (h : a ≤ b) : roundCode a 1 ≤ roundCode b 1 := by
  simp only [roundCode, Nat.div_one, Nat.one_mul]
  rcases Nat.eq_or_lt_of_le (dropped_mono h) with hsame | hless
  · rw [hsame]
    exact Nat.add_le_add_left (roundHalfEven_mono h _) _
  · have ha : roundHalfEven a (2 ^ dropped a) ≤ 2 ^ 53 := by
      have hlt : a / 2 ^ dropped a < 2 ^ 53 := by
        rw [Nat.div_lt_iff_lt_mul (Nat.two_pow_pos _), ← Nat.pow_add]
        exact lt_two_pow_dropped a
      exact (roundHalfEven_le a _).trans hlt
    have hb : 2 ^ 52 ≤ roundHalfEven b (2 ^ dropped b) := by
      refine Nat.le_trans ?_ (le_roundHalfEven b _)
      rw [Nat.le_div_iff_mul_le (Nat.two_pow_pos _), ← Nat.pow_add]
      exact two_pow_dropped_le (Nat.zero_lt_of_lt hless)
    omega

/-- Codes are in the order of the magnitudes that they stand for. -/
theorem units_mono {c d : Nat} (h : c ≤ d) : units c ≤ units d := by
  by_contra hlt
  have hle := roundCode_mono (Nat.le_of_not_le hlt)
  rw [roundCode_units, roundCode_units] at hle
  obtain rfl : c = d := Nat.le_antisymm h hle
  exact hlt (Nat.le_refl _)

/-! ## Differences -/

theorem signedUnits_not (negative : Bool) (code : Nat) :
    signedUnits (!negative) code = -signedUnits negative code := by
  cases negative <;> simp [signedUnits]

/-- Of two magnitudes the greater one is not less than a whole number if the other is not. -/
theorem ltInt_ofUnits_mono {k m : Nat} (h : k ≤ m) {n : Int}
    (hk : (ofUnits false k 1).ltInt n = false) : (ofUnits false m 1).ltInt n = false := by
  by_cases hm : roundCode m 1 < codeLimit
  · have hle := roundCode_mono h
    have hunits : (units (roundCode k 1) : Int) ≤ units (roundCode m 1) := by
      exact_mod_cast units_mono hle
    rw [ofUnits, dif_pos (Nat.lt_of_le_of_lt hle hm), ltInt, decide_eq_false_iff_not] at hk
    rw [ofUnits, dif_pos hm, ltInt, decide_eq_false_iff_not]
    exact fun hlt => hk (lt_of_le_of_lt hunits hlt)
  · rw [ofUnits, dif_neg hm]
    rfl

theorem codeLimit_pos : 0 < codeLimit := by decide

/-- The number that is nearest to a signed number of units. -/
def ofSignedUnits (zeroSign : Bool) (sum : Int) : Double :=
  if sum = 0 then .finite zeroSign 0 codeLimit_pos else ofUnits (sum < 0) sum.natAbs 1

theorem sub_finite {a b : Bool} {c d : Nat} (hc : c < codeLimit) (hd : d < codeLimit) :
    (finite a c hc).sub (finite b d hd)
      = ofSignedUnits (a && !b) (signedUnits a c - signedUnits b d) := by
  rw [sub, neg, add, signedUnits_not, ← Int.sub_eq_add_neg]
  rfl

/-- What is not less than a positive whole number consists of more than no units. -/
theorem pos_of_ltInt_ofSignedUnits {zeroSign : Bool} {sum n : Int} (hn : 0 < n)
    (h : (ofSignedUnits zeroSign sum).ltInt n = false) : 0 < sum := by
  have hone : (0 : Int) < n * unitsPerOne :=
    Int.mul_pos hn (by exact_mod_cast unitsPerOne_pos)
  rcases Int.lt_trichotomy sum 0 with hneg | rfl | hpos
  · rw [ofSignedUnits, if_neg (by omega), decide_eq_true hneg, ofUnits] at h
    split at h
    · rw [ltInt, decide_eq_false_iff_not] at h
      have hle : signedUnits true (roundCode sum.natAbs 1) ≤ 0 := by
        rw [signedUnits, if_pos rfl]
        omega
      exact absurd (lt_of_le_of_lt hle hone) h
    · cases h
  · rw [ofSignedUnits, if_pos rfl, ltInt, decide_eq_false_iff_not] at h
    have hzero : signedUnits zeroSign 0 = 0 := by cases zeroSign <;> decide
    rw [hzero] at h
    exact absurd hone h
  · exact hpos

theorem ltInt_ofSignedUnits_mono {zeroSign zeroSign' : Bool} {k m n : Int} (hn : 0 < n)
    (hkm : k ≤ m) (h : (ofSignedUnits zeroSign k).ltInt n = false) :
    (ofSignedUnits zeroSign' m).ltInt n = false := by
  have hk := pos_of_ltInt_ofSignedUnits hn h
  rw [ofSignedUnits, if_neg hk.ne', decide_eq_false (by omega)] at h
  rw [ofSignedUnits, if_neg (by omega), decide_eq_false (by omega)]
  exact ltInt_ofUnits_mono (by omega) h

/-- There is a difference between any two finite times. -/
theorem sub_ne_nan {a b : Bool} {c d : Nat} (hc : c < codeLimit) (hd : d < codeLimit) :
    (finite a c hc).sub (finite b d hd) ≠ .nan := by
  rw [sub_finite, ofSignedUnits]
  split
  · simp
  · rw [ofUnits]
    split <;> simp

/-- A time that is so many seconds after another one is so after all times that are not
later than that one. -/
theorem ltInt_sub_of_le {t u v : Double} {n : Int} (hn : 0 < n) (huv : u.le v = true)
    (h : (t.sub v).ltInt n = false) : (t.sub u).ltInt n = false := by
  cases t with
  | nan => rfl
  | infinite a =>
    cases a with
    | false =>
      cases u with
      | nan => rfl
      | infinite b => cases b <;> rfl
      | finite b d hd => rfl
    | true =>
      cases v with
      | nan => cases u <;> cases huv
      | infinite b =>
        cases b with
        | false => cases h
        | true =>
          cases u with
          | nan => rfl
          | infinite b =>
            cases b with
            | false => cases huv
            | true => rfl
          | finite b d hd => cases huv
      | finite b d hd => cases h
  | finite a c hc =>
    cases v with
    | nan => cases u <;> cases huv
    | infinite b =>
      cases b with
      | false => cases h
      | true =>
        cases u with
        | nan => rfl
        | infinite b =>
          cases b with
          | false => cases huv
          | true => rfl
        | finite b d hd => cases huv
    | finite b d hd =>
      cases u with
      | nan => rfl
      | infinite b =>
        cases b with
        | false => cases huv
        | true => rfl
      | finite b' d' hd' =>
        have hle : signedUnits b' d' ≤ signedUnits b d := of_decide_eq_true huv
        rw [sub_finite] at h ⊢
        exact ltInt_ofSignedUnits_mono hn (by omega) h

end Double

end FieldCheck
