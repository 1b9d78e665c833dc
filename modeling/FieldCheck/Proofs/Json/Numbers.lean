/-
FieldCheck.Proofs.Json.Numbers — numbers that are written and read back.

`scanMagnitude_append` says what the scanner makes of a number of the grammar. The
scanner takes what it can get, so a number has to stand in front of something
that no number goes on with (`EndsNumber`).

Whole numbers are written with their digits. A floating-point number is written
as a layout of its shortest decimal, with a point or an exponent, and `Writes`
says that this is a number of the grammar which reads as the decimal did. A
layout cuts zeros off at the end of the digits, puts others there or in front, and
moves the point; `ofDecimal_mul_pow` is why none of it matters.
-/
import FieldCheck.Json.Writer
import FieldCheck.Proofs.Json.Grammar
import FieldCheck.Proofs.Number.Rounding

namespace FieldCheck

/-! ## Runs of digits -/

namespace Decimal

theorem value_append (ds es : List Char) :
    value (ds ++ es) = value ds * 10 ^ es.length + value es := by
  rw [value, Nat.ofDigitChars_append, Nat.ofDigitChars_eq_ofDigitChars_zero, value, value,
    Nat.mul_comm]

theorem value_zeros (n : Nat) : value (List.replicate n '0') = 0 := by
  induction n with
  | zero => rfl
  | succ n ih => rw [List.replicate_succ', value_append, ih]; rfl

/-- Zeros in front count nothing. -/
theorem value_zeros_append (n : Nat) (ds : List Char) :
    value (List.replicate n '0' ++ ds) = value ds := by
  rw [value_append, value_zeros, Nat.zero_mul, Nat.zero_add]

/-- Zeros at the end count as factors of ten. -/
theorem value_append_zeros (ds : List Char) (n : Nat) :
    value (ds ++ List.replicate n '0') = value ds * 10 ^ n := by
  rw [value_append, value_zeros, List.length_replicate, Nat.add_zero]

/-- The digits of a number other than zero do not start with a zero. -/
theorem digits_eq_cons {n : Nat} (hn : n ≠ 0) :
    ∃ c ds, digits n = c :: ds ∧ c ≠ '0' ∧ c.isDigit = true ∧ ∀ d ∈ ds, d.isDigit = true := by
  obtain ⟨c, ds, hdigits⟩ := List.exists_cons_of_ne_nil (digits_ne_nil n)
  have hall : ∀ d ∈ c :: ds, d.isDigit = true := by
    intro d hd
    rw [← hdigits] at hd
    exact isDigit_of_mem_digits hd
  refine ⟨c, ds, hdigits, ?_, hall c (by simp), fun d hd => hall d (by simp [hd])⟩
  rintro rfl
  have hvalue : n = value ds := by
    rw [← value_digits n, hdigits]
    exact value_zeros_append 1 ds
  have hlt : n < 10 ^ ds.length := hvalue ▸ value_lt fun d hd => hall d (by simp [hd])
  rcases Nat.eq_zero_or_pos ds.length with hzero | hpos
  · rw [hzero] at hlt
    exact hn (Nat.lt_one_iff.1 hlt)
  · have hle := (length_digits_le_iff hpos).2 hlt
    rw [hdigits, List.length_cons] at hle
    omega

end Decimal

namespace Json

open FieldCheck.Numeral (Sign StopsAt stopsAt_cons takeWhile_append_of_stopsAt
  dropWhile_append_of_stopsAt isSign splitSign_append)
open Strict

/-! ## Reading a number of the grammar -/

/-- A character that may stand in a number behind its first digit. -/
def isNumberChar (c : Char) : Bool := c.isDigit || c == '.' || c == 'e' || c == 'E'

/-- Nothing of a number stands in front. -/
def EndsNumber (rest : List Char) : Prop := StopsAt isNumberChar rest

theorem spanDigits_append {ds rest : List Char} (hds : AreDigits ds)
    (hrest : StopsAt Char.isDigit rest) : spanDigits (ds ++ rest) = (ds, rest) := by
  rw [spanDigits, takeWhile_append_of_stopsAt hds hrest, dropWhile_append_of_stopsAt hds hrest]

variable {whole fraction ds exponent rest : List Char} {e : Option Int}

theorem EndsNumber.digit (h : EndsNumber rest) : StopsAt Char.isDigit rest := by
  intro c hc
  have hnone := h c hc
  simp only [isNumberChar, Bool.or_eq_false_iff] at hnone
  exact hnone.1.1.1

theorem EndsNumber.mark (h : EndsNumber rest) :
    ∀ c ∈ rest.head?, ¬ (c = 'e' ∨ c = 'E') ∧ c ≠ '.' := by
  intro c hc
  have hnone := h c hc
  simp only [isNumberChar, Bool.or_eq_false_iff, beq_eq_false_iff_ne] at hnone
  exact ⟨not_or.2 ⟨hnone.1.2, hnone.2⟩, hnone.1.1.2⟩

/-- What stands behind a fraction is no digit and no point. -/
theorem head_exponent_append (h : IsExponent exponent e) (hrest : EndsNumber rest) :
    ∀ c ∈ (exponent ++ rest).head?, c.isDigit = false ∧ c ≠ '.' := by
  cases h with
  | absent =>
    intro c hc
    exact ⟨hrest.digit c hc, (hrest.mark c hc).2⟩
  | given hmark =>
    intro c hc
    obtain rfl := Option.some.inj hc
    rcases hmark with rfl | rfl <;> exact ⟨by decide, by decide⟩

theorem stopsAt_fraction_append (h : IsFraction fraction ds)
    (hexponent : IsExponent exponent e) (hrest : EndsNumber rest) :
    StopsAt Char.isDigit (fraction ++ (exponent ++ rest)) := by
  cases h with
  | absent =>
    intro c hc
    exact (head_exponent_append hexponent hrest c hc).1
  | given => exact stopsAt_cons (by decide) _

theorem scanWhole_append (h : IsWhole whole) (hrest : StopsAt Char.isDigit rest) :
    scanWhole (whole ++ rest) = some (whole, rest) := by
  cases h with
  | zero => rfl
  | digits hc hzero hds =>
    have hspan := spanDigits_append (List.forall_mem_cons.2 ⟨hc, hds⟩) hrest
    rw [List.cons_append] at hspan ⊢
    unfold scanWhole
    split
    · rename_i heq
      cases heq
      exact absurd rfl hzero
    · rename_i heq
      cases heq
      rw [if_pos hc, hspan]
    · rename_i heq
      cases heq

theorem scanFraction_append (h : IsFraction fraction ds) (hexponent : IsExponent exponent e)
    (hrest : EndsNumber rest) :
    scanFraction (fraction ++ (exponent ++ rest)) = (ds, exponent ++ rest) := by
  have hhead := head_exponent_append hexponent hrest
  cases h with
  | absent =>
    rw [List.nil_append]
    unfold scanFraction
    split
    · rename_i heq
      rw [heq] at hhead
      exact absurd rfl (hhead '.' rfl).2
    · rfl
  | given hne hds =>
    have hspan := spanDigits_append hds fun c hc => (hhead c hc).1
    rw [List.cons_append, scanFraction, hspan]
    cases ds with
    | nil => exact absurd rfl hne
    | cons d ds => rfl

theorem scanExponent_append (h : IsExponent exponent e) (hrest : EndsNumber rest) :
    scanExponent (exponent ++ rest) = (e, rest) := by
  cases h with
  | absent =>
    cases rest with
    | nil => rfl
    | cons c rest => exact if_neg (hrest.mark c rfl).1
  | @given mark sign ds negative hmark hsign hne hds =>
    obtain ⟨d, ds, rfl⟩ := List.exists_cons_of_ne_nil hne
    have hnosign : StopsAt isSign (d :: ds ++ rest) := by
      refine stopsAt_cons ?_ _
      have hdigit := hds d (by simp)
      cases hs : isSign d with
      | false => rfl
      | true =>
        simp only [isSign, Bool.or_eq_true, beq_iff_eq] at hs
        rcases hs with rfl | rfl <;> cases hdigit
    rw [List.cons_append, List.append_assoc, scanExponent, if_pos hmark,
      splitSign_append hsign hnosign]
    dsimp only
    rw [spanDigits_append hds hrest.digit]

/-- What the scanner makes of a number of the grammar without its sign. -/
theorem scanMagnitude_append (hwhole : IsWhole whole) (hfraction : IsFraction fraction ds)
    (hexponent : IsExponent exponent e) (hrest : EndsNumber rest) (negative : Bool) :
    scanMagnitude negative (whole ++ (fraction ++ (exponent ++ rest))) =
      some (if ds.isEmpty && e.isNone then
          if whole.length ≤ Decimal.digitLimit then
            .ok (.int (Decimal.withSign negative (Decimal.value whole)), rest)
          else .error (.digits whole.length)
        else .ok (.float (.ofDecimal negative (Decimal.value (whole ++ ds))
          (e.getD 0 - (ds.length : Int))), rest)) := by
  rw [scanMagnitude, scanWhole_append hwhole (stopsAt_fraction_append hfraction hexponent hrest)]
  simp only [Option.map_some, scanFraction_append hfraction hexponent hrest,
    scanExponent_append hexponent hrest]

/-! ## Whole numbers -/

theorem isWhole_digits (n : Nat) : IsWhole (Decimal.digits n) := by
  rcases eq_or_ne n 0 with rfl | hn
  · exact .zero
  · obtain ⟨c, ds, hdigits, hzero, hc, hds⟩ := Decimal.digits_eq_cons hn
    rw [hdigits]
    exact .digits hc hzero hds

theorem isNumber_chars (n : Int) : IsNumber (Decimal.chars n) := by
  have hparts : IsMagnitude (Decimal.digits n.natAbs) := by
    have := IsMagnitude.parts (isWhole_digits n.natAbs) .absent .absent
    rwa [List.append_nil, List.append_nil] at this
  unfold Decimal.chars
  split
  · exact .negative hparts
  · exact .positive hparts

theorem scanMagnitude_digits {n : Nat} (h : (Decimal.digits n).length ≤ Decimal.digitLimit)
    (hrest : EndsNumber rest) (negative : Bool) :
    scanMagnitude negative (Decimal.digits n ++ rest)
      = some (.ok (.int (Decimal.withSign negative n), rest)) := by
  have hscan := scanMagnitude_append (isWhole_digits n) .absent .absent hrest negative
  rw [List.nil_append, List.nil_append] at hscan
  rw [hscan, Decimal.value_digits]
  simp [h]

theorem scanNumber_of_isDigit {c : Char} {cs : List Char} (hc : c.isDigit = true) :
    scanNumber (c :: cs) = scanMagnitude false (c :: cs) := by
  unfold scanNumber
  split
  · rename_i heq
    cases heq
    cases hc
  · rfl

/-- A whole number within the limit is read back from its digits. -/
theorem scanNumber_chars {n : Int} (h : Decimal.isWritable n = true) (hrest : EndsNumber rest) :
    scanNumber (Decimal.chars n ++ rest) = some (.ok (.int n, rest)) := by
  have hlimit := (Decimal.digits_le_limit_iff n).2 h
  by_cases hneg : n < 0
  · have habs : Decimal.withSign true n.natAbs = n := by
      rw [Decimal.withSign, if_pos rfl]
      omega
    rw [Decimal.chars, if_pos hneg, List.cons_append, scanNumber,
      scanMagnitude_digits hlimit hrest, habs]
  · have habs : Decimal.withSign false n.natAbs = n := by
      rw [Decimal.withSign, if_neg (by decide)]
      omega
    rw [Decimal.chars, if_neg hneg]
    obtain ⟨c, ds, hdigits⟩ := List.exists_cons_of_ne_nil (Decimal.digits_ne_nil n.natAbs)
    have hc : c.isDigit = true := Decimal.isDigit_of_mem_digits (n := n.natAbs) (by simp [hdigits])
    have hscan := scanMagnitude_digits hlimit hrest false
    rw [hdigits, List.cons_append] at hscan ⊢
    rw [scanNumber_of_isDigit hc, hscan, habs]

/-! ## Decimals laid out -/

open Double

/-- The characters are a number of the grammar with a point or an exponent, and
it is read as a decimal is. -/
inductive Writes (d : Scientific) : List Char → Prop
  | parts {whole fraction ds exponent : List Char} {e : Option Int} (hwhole : IsWhole whole)
      (hfraction : IsFraction fraction ds) (hexponent : IsExponent exponent e)
      (hfloat : (ds.isEmpty && e.isNone) = false)
      (hvalue : ∀ negative, ofDecimal negative (Decimal.value (whole ++ ds))
        (e.getD 0 - (ds.length : Int)) = ofDecimal negative d.coefficient d.exponent) :
      Writes d (whole ++ (fraction ++ exponent))

/-- The digits of the coefficient: those that stay, and zeros at their end. -/
structure IsCut (d : Scientific) (c : Char) (ds : List Char) (k : Nat) : Prop where
  ne_zero : d.coefficient ≠ 0
  digits_eq : Decimal.digits d.coefficient = c :: ds ++ List.replicate k '0'
  first_ne : c ≠ '0'
  first : c.isDigit = true
  others : AreDigits ds

/-- The zeros at the end of digits are what `dropZeros` drops. -/
theorem eq_dropZeros_append (ds : List Char) :
    ∃ k, ds = dropZeros ds ++ List.replicate k '0' := by
  have hzeros : ds.reverse.takeWhile (· == '0')
      = List.replicate (ds.reverse.takeWhile (· == '0')).length '0' := by
    refine List.eq_replicate_iff.2 ⟨rfl, fun d hd => ?_⟩
    simpa using List.all_eq_true.1 (List.all_takeWhile (p := (· == '0'))) d hd
  have hsplit := List.takeWhile_append_dropWhile (p := (· == '0')) (l := ds.reverse)
  rw [hzeros] at hsplit
  refine ⟨(ds.reverse.takeWhile (· == '0')).length, ?_⟩
  rw [dropZeros, ← List.reverse_replicate, ← List.reverse_append, hsplit, List.reverse_reverse]

theorem exists_isCut {d : Scientific} (hd : d.coefficient ≠ 0) :
    ∃ c ds k, dropZeros (Decimal.digits d.coefficient) = c :: ds ∧ IsCut d c ds k := by
  obtain ⟨c, all, hdigits, hzero, hc, hall⟩ := Decimal.digits_eq_cons hd
  obtain ⟨k, hk⟩ := eq_dropZeros_append (Decimal.digits d.coefficient)
  cases hkept : dropZeros (Decimal.digits d.coefficient) with
  | nil =>
    -- Only zeros were there, but the first digit is none.
    have hmem : c ∈ List.replicate k '0' := by
      rw [hkept, List.nil_append, hdigits] at hk
      rw [← hk]
      simp
    exact absurd (List.eq_of_mem_replicate hmem) hzero
  | cons b ds =>
    rw [hkept] at hk
    have hcons : c :: all = b :: (ds ++ List.replicate k '0') := hdigits.symm.trans hk
    obtain ⟨rfl, hds⟩ := List.cons.inj hcons
    refine ⟨c, ds, k, rfl, hd, hk, hzero, hc, fun x hx => hall x ?_⟩
    rw [hds]
    exact List.mem_append_left _ hx

namespace IsCut

variable {d : Scientific} {c : Char} {k : Nat}

theorem areDigits (h : IsCut d c ds k) : AreDigits (c :: ds) :=
  List.forall_mem_cons.2 ⟨h.first, h.others⟩

theorem length_digits (h : IsCut d c ds k) :
    (Decimal.digits d.coefficient).length = ds.length + 1 + k := by
  rw [h.digits_eq, List.length_append, List.length_cons, List.length_replicate]

theorem coefficient_eq (h : IsCut d c ds k) :
    d.coefficient = Decimal.value (c :: ds) * 10 ^ k := by
  rw [← Decimal.value_append_zeros, ← h.digits_eq, Decimal.value_digits]

theorem value_ne_zero (h : IsCut d c ds k) : Decimal.value (c :: ds) ≠ 0 := by
  intro hzero
  have hcoefficient := h.coefficient_eq
  rw [hzero, Nat.zero_mul] at hcoefficient
  exact h.ne_zero hcoefficient

/-- A decimal reads as the digits that stay do with any number of zeros behind them. -/
theorem ofDecimal_eq (h : IsCut d c ds k) (negative : Bool) (n : Nat) (exponent : Int)
    (hexponent : exponent = d.exponent + k - n) :
    ofDecimal negative (Decimal.value (c :: ds) * 10 ^ n) exponent
      = ofDecimal negative d.coefficient d.exponent := by
  have hstay := ofDecimal_mul_pow negative h.value_ne_zero (d.exponent + k) k
  rw [Int.add_sub_cancel, ← h.coefficient_eq] at hstay
  rw [hstay, hexponent, ofDecimal_mul_pow negative h.value_ne_zero]

theorem areDigits_zeros (n : Nat) : AreDigits (zeros n) := by
  intro x hx
  rw [List.eq_of_mem_replicate hx]
  rfl

/-- A point in front of all digits. -/
theorem writes_front (h : IsCut d c ds k) {n : Nat}
    (hn : (n : Int) = -(d.exponent + (ds.length + 1 + k))) :
    Writes d ('0' :: '.' :: (zeros n ++ c :: ds)) := by
  have hfraction : IsFraction ('.' :: (zeros n ++ c :: ds)) (zeros n ++ c :: ds) :=
    .given (by simp) (areDigits_append (areDigits_zeros n) h.areDigits)
  have hwrites := @Writes.parts d _ _ _ _ _ .zero hfraction .absent (by simp) fun negative => ?_
  · simpa using hwrites
  · have hvalue : Decimal.value (['0'] ++ (zeros n ++ c :: ds))
        = Decimal.value (c :: ds) * 10 ^ 0 := by
      rw [show ['0'] = List.replicate 1 '0' from rfl, zeros, Decimal.value_zeros_append,
        Decimal.value_zeros_append, Nat.pow_zero, Nat.mul_one]
    rw [hvalue]
    refine h.ofDecimal_eq negative 0 _ ?_
    simp only [zeros, Option.getD_none, List.length_append, List.length_replicate, List.length_cons]
    omega

/-- A point behind all digits and `n` zeros. -/
theorem writes_behind (h : IsCut d c ds k) {n : Nat} (hn : (n : Int) = d.exponent + k) :
    Writes d (c :: ds ++ zeros n ++ ['.', '0']) := by
  have hwhole : IsWhole (c :: (ds ++ zeros n)) :=
    .digits h.first h.first_ne (areDigits_append h.others (areDigits_zeros n))
  have hfraction : IsFraction ['.', '0'] ['0'] := .given (by simp) (by simp [AreDigits])
  have hwrites := @Writes.parts d _ _ _ _ _ hwhole hfraction .absent (by simp) fun negative => ?_
  · simpa using hwrites
  · have hvalue : Decimal.value (c :: (ds ++ zeros n) ++ ['0'])
        = Decimal.value (c :: ds) * 10 ^ (n + 1) := by
      rw [← Decimal.value_append_zeros, List.replicate_succ', zeros]
      simp
    rw [hvalue]
    refine h.ofDecimal_eq negative (n + 1) _ ?_
    simp only [Option.getD_none, List.length_cons, List.length_nil]
    omega

/-- A point between two of the digits. -/
theorem writes_between (h : IsCut d c ds k) {n : Nat} (hpos : 0 < n) (hlt : n < ds.length + 1)
    (hn : (n : Int) = d.exponent + (ds.length + 1 + k)) :
    Writes d ((c :: ds).take n ++ '.' :: (c :: ds).drop n) := by
  obtain ⟨m, rfl⟩ : ∃ m, n = m + 1 := ⟨n - 1, by omega⟩
  have hwhole : IsWhole ((c :: ds).take (m + 1)) := by
    rw [List.take_succ_cons]
    exact .digits h.first h.first_ne fun x hx => h.others x (List.mem_of_mem_take hx)
  have hlength : ((c :: ds).drop (m + 1)).length = ds.length - m := by simp
  have hfraction : IsFraction ('.' :: (c :: ds).drop (m + 1)) ((c :: ds).drop (m + 1)) := by
    refine .given (fun hnil => ?_) fun x hx => h.areDigits x (List.mem_of_mem_drop hx)
    rw [hnil, List.length_nil] at hlength
    omega
  have hfloat : (((c :: ds).drop (m + 1)).isEmpty && (none : Option Int).isNone) = false := by
    rw [Bool.and_eq_false_iff, List.isEmpty_eq_false_iff_exists_mem]
    exact .inl (List.exists_mem_of_length_pos (by omega))
  have hwrites := @Writes.parts d _ _ _ _ _ hwhole hfraction .absent hfloat fun negative => ?_
  · simpa using hwrites
  · rw [List.take_append_drop, ← Nat.mul_one (Decimal.value _), ← Nat.pow_zero 10]
    refine h.ofDecimal_eq negative 0 _ ?_
    rw [hlength, Option.getD_none]
    omega

/-- The first digit, the others behind a point, and an exponent. -/
theorem writes_scientific (h : IsCut d c ds k) (l : Layout) :
    Writes d (l.scientific (c :: ds) (d.exponent + (ds.length + 1 + k))) := by
  have hwhole : IsWhole [c] := .digits h.first h.first_ne areDigits_nil
  obtain ⟨fraction, hfraction, htext⟩ : ∃ fraction, IsFraction fraction ds
      ∧ fraction = if (c :: ds).length ≤ 1 then [] else '.' :: (c :: ds).drop 1 := by
    cases ds with
    | nil => exact ⟨_, .absent, rfl⟩
    | cons d ds => exact ⟨_, .given (by simp) h.others, by simp⟩
  generalize hpoint : d.exponent + ((ds.length : Int) + 1 + k) = point
  obtain ⟨negative, sign, hsign, hchar, hvalue⟩ : ∃ negative sign, Numeral.Sign [sign] negative
      ∧ (if point - 1 < 0 then '-' else '+') = sign
      ∧ Decimal.withSign negative (point - 1).natAbs = point - 1 := by
    by_cases hneg : point - 1 < 0
    · refine ⟨true, '-', .minus, if_pos hneg, ?_⟩
      rw [Decimal.withSign, if_pos rfl]
      omega
    · refine ⟨false, '+', .plus, if_neg hneg, ?_⟩
      rw [Decimal.withSign, if_neg (by decide)]
      omega
  have hexponent : IsExponent (l.exponent (point - 1)) (some (point - 1)) := by
    have hdigits : AreDigits (Decimal.digits (point - 1).natAbs) := fun x hx =>
      Decimal.isDigit_of_mem_digits hx
    have hgiven := @IsExponent.given 'e' [sign]
      (zeros (l.exponentWidth - (Decimal.digits (point - 1).natAbs).length)
        ++ Decimal.digits (point - 1).natAbs) negative (.inl rfl) hsign
      (by simp [Decimal.digits_ne_nil]) (areDigits_append (areDigits_zeros _) hdigits)
    rw [zeros, Decimal.value_zeros_append, Decimal.value_digits, hvalue] at hgiven
    rw [Layout.exponent, hchar]
    simpa [zeros] using hgiven
  have hwrites := @Writes.parts d _ _ _ _ _ hwhole hfraction hexponent (by simp) fun negative => ?_
  · rw [Layout.scientific, ← htext, List.append_assoc]
    simpa using hwrites
  · have hcons : [c] ++ ds = c :: ds := rfl
    rw [hcons, ← Nat.mul_one (Decimal.value _), ← Nat.pow_zero 10]
    refine h.ofDecimal_eq negative 0 _ ?_
    rw [Option.getD_some]
    omega

end IsCut

/-- Every decimal is written as a number that reads as the decimal does. -/
theorem writes_render (l : Layout) (d : Scientific) : Writes d (l.render d) := by
  by_cases hd : d.coefficient = 0
  · have hfraction : IsFraction ['.', '0'] ['0'] := .given (by simp) (by simp [AreDigits])
    have hrender : l.render d = ['0'] ++ (['.', '0'] ++ []) := by simp [Layout.render, hd]
    rw [hrender]
    refine .parts .zero hfraction .absent rfl fun negative => ?_
    rw [hd, ofDecimal_zero]
    exact ofDecimal_zero negative _
  · obtain ⟨c, ds, k, hdrop, h⟩ := exists_isCut hd
    have hlength := h.length_digits
    rw [Layout.render, if_neg hd, hdrop, hlength]
    push_cast
    split
    · unfold Layout.positional
      split
      · exact h.writes_front (by omega)
      split
      · rename_i hinside hshort
        rw [List.length_cons] at hshort ⊢
        exact h.writes_behind (by omega)
      · rename_i hinside hlong
        rw [List.length_cons] at hlong
        exact h.writes_between (by omega) (by omega) (by omega)
    · exact h.writes_scientific l

/-! ## Floating-point numbers -/

theorem Writes.isMagnitude {d : Scientific} {cs : List Char} (h : Writes d cs) :
    IsMagnitude cs := by
  cases h with
  | parts hwhole hfraction hexponent => exact .parts hwhole hfraction hexponent

theorem Writes.scanMagnitude {d : Scientific} {cs : List Char} (h : Writes d cs)
    (hrest : EndsNumber rest) (negative : Bool) :
    scanMagnitude negative (cs ++ rest)
      = some (.ok (.float (ofDecimal negative d.coefficient d.exponent), rest)) := by
  cases h with
  | parts hwhole hfraction hexponent hfloat hvalue =>
    have hscan := scanMagnitude_append hwhole hfraction hexponent hrest negative
    rw [hfloat, if_neg (by decide), hvalue] at hscan
    simpa using hscan

theorem Writes.exists_cons {d : Scientific} {cs : List Char} (h : Writes d cs) :
    ∃ c tail, cs = c :: tail ∧ c.isDigit = true := by
  cases h with
  | parts hwhole =>
    cases hwhole with
    | zero => exact ⟨'0', _, rfl, rfl⟩
    | @digits c ds hc => exact ⟨c, _, rfl, hc⟩

theorem isNumber_chars_finite (negative : Bool) {code : Nat} (h : code < codeLimit) :
    IsNumber (Double.finite negative code h).chars := by
  have hmagnitude := (writes_render layout (shortest code)).isMagnitude
  rw [Double.chars]
  generalize layout.render (shortest code) = cs at hmagnitude
  cases negative with
  | false => exact .positive hmagnitude
  | true => exact .negative hmagnitude

/-- A finite number is read back from its shortest form. -/
theorem scanNumber_chars_finite (negative : Bool) {code : Nat} (h : code < codeLimit)
    (hrest : EndsNumber rest) :
    scanNumber ((Double.finite negative code h).chars ++ rest)
      = some (.ok (.float (.finite negative code h), rest)) := by
  have hwrites := writes_render layout (shortest code)
  have hscan := hwrites.scanMagnitude hrest negative
  rw [ofDecimal_shortest negative h] at hscan
  rw [Double.chars]
  generalize layout.render (shortest code) = cs at hwrites hscan
  cases negative with
  | false =>
    obtain ⟨c, tail, rfl, hc⟩ := hwrites.exists_cons
    exact (scanNumber_of_isDigit hc).trans hscan
  | true => exact hscan

end Json

end FieldCheck
