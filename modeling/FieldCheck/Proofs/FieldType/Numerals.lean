/-
FieldCheck.Proofs.FieldType.Numerals — which texts count as numbers.

A text counts as a number exactly when it is a literal of the grammar. That is how
the scanner was described (`Numeral.scan_eq_some_iff`); here it is said of the check,
together with what no padding and no length can change (`isNumeric_text_grammar`):

* a literal has a digit, so blanks, words, and signs and points on their own are none;
* a sign and an exponent around nothing, or around a lone point, make no literal,
  although the exponent has digits;
* a literal is made of blanks, signs, digits, points and marks, so letters of other
  bases and separators are not found in one;
* the blanks of a literal stand at its ends, never in between.

The last two are read off a division of a literal in blanks, a body without any, and
blanks (`exists_body_of_spells`).
-/
import FieldCheck.FieldType.Accepts
import FieldCheck.Proofs.Number.Literal

namespace FieldCheck

namespace Numeral

/-! ## Characters of a literal -/

/-- A character of a literal that is no blank: a sign, a digit, a point or a mark. -/
def isBodyChar (c : Char) : Bool := isSign c || isMantissaChar c || isMark c

theorem isBlank_of_isBodyChar {c : Char} (h : isBodyChar c = true) : Text.isBlank c = false := by
  cases hb : Text.isBlank c with
  | false => rfl
  | true =>
    simp only [isBodyChar, isMantissaChar, isDigit_of_isBlank hb, isMark_of_isBlank c hb, isSign,
      Bool.false_or, Bool.or_false, Bool.or_eq_true, beq_iff_eq] at h
    rcases h with (rfl | rfl) | rfl <;> revert hb <;> decide

theorem isBodyChar_of_areDigits {ds : List Char} (h : AreDigits ds) :
    ∀ c ∈ ds, isBodyChar c = true := by
  intro c hc
  simp [isBodyChar, isMantissaChar, h c hc]

theorem Sign.isBodyChar {sign : List Char} {negative : Bool} (h : Sign sign negative) :
    ∀ c ∈ sign, isBodyChar c = true := by
  refine List.all_eq_true.1 ?_
  cases h <;> decide

theorem Mantissa.isBodyChar {mantissa ds fs : List Char} (h : Mantissa mantissa ds fs) :
    ∀ c ∈ mantissa, isBodyChar c = true := by
  have hpointed : ∀ {fs : List Char}, AreDigits fs →
      ∀ c ∈ '.' :: fs, Numeral.isBodyChar c = true := by
    intro fs hfs
    exact List.forall_mem_cons.2 ⟨by decide, isBodyChar_of_areDigits hfs⟩
  cases h with
  | whole hne hds => exact isBodyChar_of_areDigits hds
  | pointed hne hds hfs =>
    exact List.forall_mem_append.2 ⟨isBodyChar_of_areDigits hds, hpointed hfs⟩
  | fraction hne hfs => exact hpointed hfs

theorem Exponent.isBodyChar {exponent : List Char} {power : Int} (h : Exponent exponent power) :
    ∀ c ∈ exponent, isBodyChar c = true := by
  cases h with
  | absent => simp
  | given hmark hsign hne hds =>
    have hpower := List.forall_mem_append.2 ⟨hsign.isBodyChar, isBodyChar_of_areDigits hds⟩
    refine List.forall_mem_cons.2 ⟨?_, hpower⟩
    rcases hmark with rfl | rfl <;> decide

/-- A literal is a body without blanks, between blanks. -/
theorem exists_body_of_spells {cs : List Char} {n : Numeral} (h : Spells cs n) :
    ∃ front body back, cs = front ++ (body ++ back) ∧ AreBlanks front ∧ AreBlanks back
      ∧ ∀ c ∈ body, isBodyChar c = true := by
  cases h with
  | @literal front sign mantissa exponent back _ hfront hsign hmantissa hexponent hback =>
    have hbehind := List.forall_mem_append.2 ⟨hmantissa.isBodyChar, hexponent.isBodyChar⟩
    exact ⟨front, sign ++ (mantissa ++ exponent), back, by simp, hfront, hback,
      List.forall_mem_append.2 ⟨hsign.isBodyChar, hbehind⟩⟩

theorem isBodyChar_or_isBlank_of_spells {cs : List Char} {n : Numeral} (h : Spells cs n) :
    ∀ c ∈ cs, isBodyChar c = true ∨ Text.isBlank c = true := by
  obtain ⟨front, body, back, rfl, hfront, hback, hbody⟩ := exists_body_of_spells h
  intro c hc
  rcases List.mem_append.1 hc with hc | hc
  · exact .inr (hfront c hc)
  · rcases List.mem_append.1 hc with hc | hc
    · exact .inl (hbody c hc)
    · exact .inr (hback c hc)

/-- On one side of a blank in a literal there are blanks alone. -/
theorem areBlanks_of_spells {before after : List Char} {c : Char} {n : Numeral}
    (h : Spells (before ++ c :: after) n) (hc : Text.isBlank c = true) :
    AreBlanks before ∨ AreBlanks after := by
  obtain ⟨front, body, back, hcs, hfront, hback, hbody⟩ := exists_body_of_spells h
  have hafter : ∀ rest, back = rest ++ c :: after → AreBlanks after := by
    rintro rest rfl d hd
    exact hback d (List.mem_append_right rest (List.mem_cons_of_mem c hd))
  rcases List.append_eq_append_iff.1 hcs with ⟨rest, rfl, -⟩ | ⟨rest, -, hrest⟩
  · exact .inl fun d hd => hfront d (List.mem_append_left rest hd)
  · rcases List.append_eq_append_iff.1 hrest with ⟨rest, -, hlast⟩ | ⟨rest, rfl, hlast⟩
    · exact .inr (hafter rest hlast)
    · -- The blank is none of the body, so it is the first of the blanks behind it.
      cases rest with
      | nil => exact .inr (hafter [] hlast.symm)
      | cons d rest =>
        obtain rfl : c = d := (List.cons.inj hlast).1
        have hbodied := isBlank_of_isBodyChar (hbody c (by simp))
        rw [hc] at hbodied
        cases hbodied

theorem exists_isDigit_of_spells {cs : List Char} {n : Numeral} (h : Spells cs n) :
    ∃ c ∈ cs, Text.isDigit c = true := by
  cases h with
  | @literal front sign mantissa exponent back _ hfront hsign hmantissa hexponent hback =>
    have hdigit : ∃ c ∈ mantissa, Text.isDigit c = true := by
      generalize n.whole = ds, n.fraction = fs at hmantissa
      cases hmantissa with
      | whole hne hds =>
        obtain ⟨c, hc⟩ := List.exists_mem_of_ne_nil _ hne
        exact ⟨c, hc, hds c hc⟩
      | pointed hne hds hfs =>
        obtain ⟨c, hc⟩ := List.exists_mem_of_ne_nil _ hne
        exact ⟨c, List.mem_append_left _ hc, hds c hc⟩
      | fraction hne hfs =>
        obtain ⟨c, hc⟩ := List.exists_mem_of_ne_nil _ hne
        exact ⟨c, List.mem_cons_of_mem _ hc, hfs c hc⟩
    obtain ⟨c, hc, hd⟩ := hdigit
    exact ⟨c, by simp [hc], hd⟩

/-- What the scanner refuses is no literal, and the other way round. -/
theorem scan_eq_none_iff (cs : List Char) : scan cs = none ↔ ∀ n, ¬ Spells cs n := by
  simp only [← scan_eq_some_iff, Option.eq_none_iff_forall_ne_some, ne_eq]

/-- A text without a digit is no literal. -/
theorem scan_eq_none_of_no_digit {cs : List Char} (h : ∀ c ∈ cs, Text.isDigit c = false) :
    scan cs = none := by
  refine (scan_eq_none_iff cs).2 fun n hn => ?_
  obtain ⟨c, hc, hdigit⟩ := exists_isDigit_of_spells hn
  rw [h c hc] at hdigit
  cases hdigit

/-! ## Texts without a mantissa -/

/-- Where no mantissa stands, or only a point, the scanner finds no digit. -/
theorem scanMantissa_of_no_digit {mantissa rest : List Char} (h : mantissa = [] ∨ mantissa = ['.'])
    (hrest : StopsAt isMantissaChar rest) :
    (spanDigits (mantissa ++ rest)).1 = []
      ∧ scanFraction (spanDigits (mantissa ++ rest)).2 = ([], rest) := by
  have hdigit : StopsAt Text.isDigit rest := fun c hc => (Bool.or_eq_false_iff.1 (hrest c hc)).1
  have hpoint : StopsAt (· == '.') rest := fun c hc => (Bool.or_eq_false_iff.1 (hrest c hc)).2
  have hspan : spanDigits rest = ([], rest) := spanDigits_append areDigits_nil hdigit
  rcases h with rfl | rfl
  · rw [List.nil_append, hspan]
    exact ⟨rfl, scanFraction_of_stopsAt hpoint⟩
  · have hstop : spanDigits ('.' :: rest) = ([], '.' :: rest) :=
      spanDigits_append areDigits_nil (stopsAt_cons (by decide) rest)
    rw [List.singleton_append, hstop]
    exact ⟨rfl, hspan⟩

/-- A sign and an exponent around nothing, or around a lone point, are no literal. -/
theorem scan_eq_none_of_no_mantissa {front sign mantissa exponent back : List Char}
    {negative : Bool} {power : Int} (hfront : AreBlanks front) (hsign : Sign sign negative)
    (hmantissa : mantissa = [] ∨ mantissa = ['.']) (hexponent : Exponent exponent power)
    (hback : AreBlanks back) :
    scan (front ++ (sign ++ (mantissa ++ (exponent ++ back)))) = none := by
  obtain ⟨hwhole, hfraction⟩ := scanMantissa_of_no_digit hmantissa
    (stopsAt_isMantissaChar hexponent hback)
  have hpoint : ∀ c ∈ mantissa, c = '.' := by rcases hmantissa with rfl | rfl <;> simp
  cases hexponent with
  | absent =>
    -- Without an exponent there is no digit at all.
    refine scan_eq_none_of_no_digit fun c hc => ?_
    simp only [List.mem_append, List.not_mem_nil, false_or] at hc
    rcases hc with hc | hc | hc | hc
    · exact isDigit_of_isBlank (hfront c hc)
    · cases hsign with
      | absent => cases hc
      | plus =>
        rw [List.mem_singleton.1 hc]
        decide
      | minus =>
        rw [List.mem_singleton.1 hc]
        decide
    · rw [hpoint c hc]
      decide
    · exact isDigit_of_isBlank (hback c hc)
  | @given mark sign' ds negative' hmark hsign' hne hds =>
    have hmarked : StopsAt isSign (mantissa ++ (mark :: (sign' ++ ds) ++ back)) := by
      rcases hmantissa with rfl | rfl
      · exact stopsAt_cons (by rcases hmark with rfl | rfl <;> decide) _
      · exact stopsAt_cons (by decide) _
    have hfull : StopsAt Text.isBlank (sign ++ (mantissa ++ (mark :: (sign' ++ ds) ++ back))) := by
      have hmark' : Text.isBlank mark = false := by rcases hmark with rfl | rfl <;> decide
      cases hsign with
      | absent =>
        rcases hmantissa with rfl | rfl
        · exact stopsAt_cons hmark' _
        · exact stopsAt_cons (by decide) _
      | plus => exact stopsAt_cons (by decide) _
      | minus => exact stopsAt_cons (by decide) _
    rw [scan, dropWhile_append_of_stopsAt hfront hfull, splitSign_append hsign hmarked]
    simp only [hwhole, hfraction]
    rfl

end Numeral

/-! ## Texts that count as numbers -/

namespace Value

open Numeral

theorem isNumeric_text_eq_false_iff (s : String) :
    (text s).isNumeric = false ↔ scan s.toList = none := by
  rw [isNumeric, isNumeral, Option.isSome_eq_false_iff, Option.isNone_iff_eq_none]

/-- A text counts as a number exactly when it is a literal of the grammar. So none does
that has no digit, that has no mantissa with a digit, that has a character which is
neither a blank nor a sign, a digit, a point or a mark, or that has a blank with
something on both sides of it; and this at any length and with any blanks around. -/
theorem isNumeric_text_grammar (s : String) :
    ((text s).isNumeric = true ↔
      ∃ front sign mantissa exponent back negative whole fraction power,
        s.toList = front ++ (sign ++ (mantissa ++ (exponent ++ back))) ∧ AreBlanks front
          ∧ Sign sign negative ∧ Mantissa mantissa whole fraction ∧ Exponent exponent power
          ∧ AreBlanks back)
    ∧ ((∀ c ∈ s.toList, Text.isDigit c = false) → (text s).isNumeric = false)
    ∧ (∀ front sign mantissa exponent back negative power,
        s.toList = front ++ (sign ++ (mantissa ++ (exponent ++ back))) → AreBlanks front →
        Sign sign negative → mantissa = [] ∨ mantissa = ['.'] → Exponent exponent power →
        AreBlanks back → (text s).isNumeric = false)
    ∧ (∀ c ∈ s.toList, isBodyChar c = false → Text.isBlank c = false →
        (text s).isNumeric = false)
    ∧ (∀ before c after, s.toList = before ++ c :: after → Text.isBlank c = true →
        ¬ AreBlanks before → ¬ AreBlanks after → (text s).isNumeric = false) := by
  simp only [isNumeric_text_eq_false_iff]
  refine ⟨?_, scan_eq_none_of_no_digit, ?_, ?_, ?_⟩
  · rw [isNumeric, isNumeral, Option.isSome_iff_exists]
    constructor
    · rintro ⟨n, hn⟩
      generalize s.toList = cs at hn ⊢
      cases spells_of_scan hn with
      | literal hfront hsign hmantissa hexponent hback =>
        exact ⟨_, _, _, _, _, _, _, _, _, rfl, hfront, hsign, hmantissa, hexponent, hback⟩
    · rintro ⟨front, sign, mantissa, exponent, back, negative, whole, fraction, power, hs, hfront,
        hsign, hmantissa, hexponent, hback⟩
      rw [hs]
      exact ⟨⟨negative, whole, fraction, power⟩,
        scan_of_spells (.literal hfront hsign hmantissa hexponent hback)⟩
  · intro front sign mantissa exponent back negative power hs hfront hsign hmantissa hexponent hback
    rw [hs]
    exact scan_eq_none_of_no_mantissa hfront hsign hmantissa hexponent hback
  · intro c hc hbody hblank
    refine (scan_eq_none_iff _).2 fun n hn => ?_
    rcases isBodyChar_or_isBlank_of_spells hn c hc with h | h
    · rw [hbody] at h
      cases h
    · rw [hblank] at h
      cases h
  · intro before c after hs hc hbefore hafter
    rw [hs]
    exact (scan_eq_none_iff _).2 fun n hn => (areBlanks_of_spells hn hc).elim hbefore hafter

/-- A literal with blanks around it, a word, a lone point with an exponent, a number to
another base, and digits with a blank in between. -/
theorem isNumeric_text_grammar_each :
    (text "\u00a0-1.5E+3\n").isNumeric = true
      ∧ (text " nan\n").isNumeric = false
      ∧ (text " +.e5").isNumeric = false
      ∧ (text "0x1F").isNumeric = false
      ∧ (text "1 000").isNumeric = false := by
  have hword : ∀ c ∈ " nan\n".toList, Text.isDigit c = false := by
    have hall : " nan\n".toList.all (!Text.isDigit ·) = true := by decide
    simpa only [List.all_eq_true, Bool.not_eq_true'] using hall
  refine ⟨(isNumeric_text_grammar _).1.2 ⟨['\u00a0'], ['-'], ['1', '.', '5'], ['E', '+', '3'],
      ['\n'], true, ['1'], ['5'], 3, rfl, by decide, .minus, ?_, ?_, by decide⟩,
    (isNumeric_text_grammar _).2.1 hword,
    (isNumeric_text_grammar _).2.2.1 [' '] ['+'] ['.'] ['e', '5'] [] false 5 rfl (by decide) .plus
      (.inr rfl) ?_ (by decide),
    (isNumeric_text_grammar _).2.2.2.1 'x' (by decide) (by decide) (by decide),
    (isNumeric_text_grammar _).2.2.2.2 ['1'] ' ' ['0', '0', '0'] rfl (by decide) (by decide)
      (by decide)⟩
  · show Mantissa (['1'] ++ '.' :: ['5']) ['1'] ['5']
    exact .pointed (by decide) (by decide) (by decide)
  · show Exponent ('E' :: (['+'] ++ ['3'])) (Decimal.withSign false (magnitude ['3']))
    exact .given (.inr rfl) .plus (by decide) (by decide)
  · show Exponent ('e' :: ([] ++ ['5'])) (Decimal.withSign false (magnitude ['5']))
    exact .given (.inl rfl) .absent (by decide) (by decide)

end Value

end FieldCheck
