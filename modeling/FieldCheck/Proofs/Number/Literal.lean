/-
FieldCheck.Proofs.Number.Literal — the grammar of decimal literals.

A decimal literal is written as

    blanks sign mantissa exponent blanks

where the sign may be missing, the mantissa is digits with a point and more
digits behind them, or a point and digits, and the exponent is missing or a
mark, a sign and digits. `Sign`, `Mantissa`, `Exponent` and `Spells` are these
rules, each relating a text to what it stands for.

`scan_eq_some_iff` says that `Numeral.scan` finds exactly the literals of the
grammar, with their parts. The scanner is greedy and never goes back. That
loses nothing, because what may follow a run of digits in a literal (a point,
a mark, a blank) is no digit, and what may follow the blanks in front is none.
`StopsAt` is this condition on what follows.
-/
import FieldCheck.Number.Numeral

namespace FieldCheck.Numeral

/-! ## The grammar -/

/-- All characters are decimal digits. -/
def AreDigits (cs : List Char) : Prop := ∀ c ∈ cs, Text.isDigit c = true

/-- All characters are blanks. -/
def AreBlanks (cs : List Char) : Prop := ∀ c ∈ cs, Text.isBlank c = true

instance (cs : List Char) : Decidable (AreDigits cs) :=
  decidable_of_iff (cs.all Text.isDigit = true) List.all_eq_true

instance (cs : List Char) : Decidable (AreBlanks cs) :=
  decidable_of_iff (cs.all Text.isBlank = true) List.all_eq_true

/-- A sign, which may be missing, and whether it is a minus sign. -/
inductive Sign : List Char → Bool → Prop
  | absent : Sign [] false
  | plus : Sign ['+'] false
  | minus : Sign ['-'] true

/-- The digits in front of a point and behind it. There is at least one. -/
inductive Mantissa : List Char → List Char → List Char → Prop
  | whole {ds : List Char} (hne : ds ≠ []) (hds : AreDigits ds) : Mantissa ds ds []
  | pointed {ds fs : List Char} (hne : ds ≠ []) (hds : AreDigits ds) (hfs : AreDigits fs) :
      Mantissa (ds ++ '.' :: fs) ds fs
  | fraction {fs : List Char} (hne : fs ≠ []) (hfs : AreDigits fs) : Mantissa ('.' :: fs) [] fs

/-- An exponent and its value. A missing one is zero. -/
inductive Exponent : List Char → Int → Prop
  | absent : Exponent [] 0
  | given {mark : Char} {sign ds : List Char} {negative : Bool} (hmark : mark = 'e' ∨ mark = 'E')
      (hsign : Sign sign negative) (hne : ds ≠ []) (hds : AreDigits ds) :
      Exponent (mark :: (sign ++ ds)) (Decimal.withSign negative (magnitude ds))

/-- A whole literal and the numeral that it stands for. -/
inductive Spells : List Char → Numeral → Prop
  | literal {front sign mantissa exponent back : List Char} {n : Numeral} (hfront : AreBlanks front)
      (hsign : Sign sign n.negative) (hmantissa : Mantissa mantissa n.whole n.fraction)
      (hexponent : Exponent exponent n.exponent) (hback : AreBlanks back) :
      Spells (front ++ (sign ++ (mantissa ++ (exponent ++ back)))) n

/-! ## Classes of characters -/

/-- The codes of the blanks. -/
def blankCodes : List Nat :=
  [9, 10, 11, 12, 13, 28, 29, 30, 31, 32, 0x85, 0xA0, 0x1680, 0x2000, 0x2001, 0x2002, 0x2003,
   0x2004, 0x2005, 0x2006, 0x2007, 0x2008, 0x2009, 0x200A, 0x2028, 0x2029, 0x202F, 0x205F, 0x3000]

theorem mem_blankCodes {c : Char} (h : Text.isBlank c = true) : c.toNat ∈ blankCodes := by
  simp only [Text.isBlank, Bool.or_eq_true, Bool.and_eq_true, decide_eq_true_eq, beq_iff_eq] at h
  simp only [blankCodes, List.mem_cons, List.not_mem_nil, or_false]
  omega

theorem isDigit_of_isBlank {c : Char} (h : Text.isBlank c = true) : Text.isDigit c = false := by
  have hall : ∀ n ∈ blankCodes, (Text.digitZeros.find? fun z => z ≤ n && n < z + 10) = none := by
    decide
  simp [Text.isDigit, Text.digitValue, hall _ (mem_blankCodes h)]

theorem isBlank_of_isDigit {c : Char} (h : Text.isDigit c = true) : Text.isBlank c = false := by
  cases hb : Text.isBlank c with
  | false => rfl
  | true => simp [isDigit_of_isBlank hb] at h

/-! ## What stops a scanner -/

/-- A text that a run of a class of characters does not go on with. -/
def StopsAt (p : Char → Bool) (rest : List Char) : Prop := ∀ c ∈ rest.head?, p c = false

theorem stopsAt_cons {p : Char → Bool} {c : Char} (h : p c = false) (rest : List Char) :
    StopsAt p (c :: rest) := by simpa [StopsAt] using h

/-- A run up to a text that it does not go on with. -/
theorem takeWhile_append_of_stopsAt {p : Char → Bool} {run rest : List Char}
    (hrun : ∀ c ∈ run, p c = true) (hrest : StopsAt p rest) :
    (run ++ rest).takeWhile p = run := by
  rw [List.takeWhile_append_of_pos hrun]
  cases rest with
  | nil => simp
  | cons c rest => simp [hrest c rfl]

theorem dropWhile_append_of_stopsAt {p : Char → Bool} {run rest : List Char}
    (hrun : ∀ c ∈ run, p c = true) (hrest : StopsAt p rest) :
    (run ++ rest).dropWhile p = rest := by
  rw [List.dropWhile_append_of_pos hrun]
  cases rest with
  | nil => rfl
  | cons c rest => simp [hrest c rfl]

theorem areDigits_nil : AreDigits [] := by simp [AreDigits]

theorem spanDigits_append {ds rest : List Char} (hds : AreDigits ds)
    (hrest : StopsAt Text.isDigit rest) : spanDigits (ds ++ rest) = (ds, rest) := by
  rw [spanDigits, takeWhile_append_of_stopsAt hds hrest, dropWhile_append_of_stopsAt hds hrest]

/-- A run of digits in front of anything, as the scanner finds it. -/
theorem areDigits_spanDigits (cs : List Char) : AreDigits (spanDigits cs).1 :=
  List.all_eq_true.1 List.all_takeWhile

theorem append_spanDigits (cs : List Char) : (spanDigits cs).1 ++ (spanDigits cs).2 = cs :=
  List.takeWhile_append_dropWhile

/-! ## Signs -/

/-- A character that is a sign. -/
def isSign (c : Char) : Bool := c == '+' || c == '-'

theorem splitSign_append {sign rest : List Char} {negative : Bool} (h : Sign sign negative)
    (hrest : StopsAt isSign rest) : Decimal.splitSign (sign ++ rest) = (negative, rest) := by
  cases h with
  | plus => rfl
  | minus => rfl
  | absent =>
    cases rest with
    | nil => rfl
    | cons c rest =>
      have hc : isSign c = false := hrest c rfl
      simp only [isSign, Bool.or_eq_false_iff, beq_eq_false_iff_ne] at hc
      rw [List.nil_append, Decimal.splitSign]
      · rintro rest' h
        exact hc.2 (List.cons.inj h).1
      · rintro rest' h
        exact hc.1 (List.cons.inj h).1

theorem sign_splitSign (cs : List Char) :
    ∃ sign, cs = sign ++ (Decimal.splitSign cs).2 ∧ Sign sign (Decimal.splitSign cs).1 := by
  unfold Decimal.splitSign
  split
  · exact ⟨['-'], rfl, .minus⟩
  · exact ⟨['+'], rfl, .plus⟩
  · exact ⟨[], rfl, .absent⟩

theorem stopsAt_isSign_digits {ds : List Char} (hne : ds ≠ []) (hds : AreDigits ds)
    (rest : List Char) : StopsAt isSign (ds ++ rest) := by
  obtain ⟨d, ds, rfl⟩ := List.exists_cons_of_ne_nil hne
  refine stopsAt_cons ?_ _
  have hd : Text.isDigit d = true := hds d (by simp)
  cases hs : isSign d with
  | false => rfl
  | true =>
    simp only [isSign, Bool.or_eq_true, beq_iff_eq] at hs
    rcases hs with rfl | rfl <;> revert hd <;> decide

/-! ## Exponents -/

/-- A character that starts an exponent. -/
def isMark (c : Char) : Bool := c == 'e' || c == 'E'

/-- Blanks stop digits, a point, an exponent and a sign. -/
theorem stopsAt_blanks {p : Char → Bool} {back : List Char} (hback : AreBlanks back)
    (h : ∀ c, Text.isBlank c = true → p c = false) : StopsAt p back := fun c hc =>
  h c (hback c (List.mem_of_mem_head? hc))

theorem isMark_of_isBlank (c : Char) (h : Text.isBlank c = true) : isMark c = false := by
  cases hm : isMark c with
  | false => rfl
  | true =>
    simp only [isMark, Bool.or_eq_true, beq_iff_eq] at hm
    rcases hm with rfl | rfl <;> revert h <;> decide

theorem scanExponent_of_stopsAt {rest : List Char} (h : StopsAt isMark rest) :
    scanExponent rest = (0, rest) := by
  cases rest with
  | nil => rfl
  | cons c rest =>
    have hc : ¬ (c = 'e' ∨ c = 'E') := by
      have := h c rfl
      simpa [isMark] using this
    rw [scanExponent, if_neg hc]

theorem scanExponent_append {exponent back : List Char} {value : Int}
    (h : Exponent exponent value) (hback : AreBlanks back) :
    scanExponent (exponent ++ back) = (value, back) := by
  cases h with
  | absent => exact scanExponent_of_stopsAt (stopsAt_blanks hback isMark_of_isBlank)
  | @given mark sign ds negative hmark hsign hne hds =>
    have hsplit : Decimal.splitSign (sign ++ (ds ++ back)) = (negative, ds ++ back) :=
      splitSign_append hsign (stopsAt_isSign_digits hne hds back)
    have hspan : spanDigits (ds ++ back) = (ds, back) :=
      spanDigits_append hds (stopsAt_blanks hback fun _ => isDigit_of_isBlank)
    obtain ⟨d, ds, rfl⟩ := List.exists_cons_of_ne_nil hne
    simp only [List.cons_append, List.append_assoc] at hsplit hspan ⊢
    rw [scanExponent, if_pos hmark, hsplit]
    simp only [hspan]

theorem exponent_scanExponent (cs : List Char) :
    ∃ exponent, cs = exponent ++ (scanExponent cs).2 ∧ Exponent exponent (scanExponent cs).1 := by
  cases cs with
  | nil => exact ⟨[], rfl, .absent⟩
  | cons c rest =>
    by_cases hc : c = 'e' ∨ c = 'E'
    · obtain ⟨sign, hsplit, hsign⟩ := sign_splitSign rest
      have hdigits := areDigits_spanDigits (Decimal.splitSign rest).2
      have happend := append_spanDigits (Decimal.splitSign rest).2
      rw [scanExponent, if_pos hc]
      simp only
      generalize Decimal.splitSign rest = s at hsplit hsign hdigits happend ⊢
      split
      · exact ⟨[], rfl, .absent⟩
      · rename_i ds left hne hspan
        rw [hspan] at hdigits happend
        refine ⟨c :: (sign ++ ds), ?_, .given hc hsign hne hdigits⟩
        rw [hsplit, ← happend]
        simp
    · rw [scanExponent, if_neg hc]
      exact ⟨[], rfl, .absent⟩

/-! ## Mantissas -/

/-- What may follow a mantissa: neither a digit nor a point. -/
def isMantissaChar (c : Char) : Bool := Text.isDigit c || c == '.'

theorem stopsAt_isMantissaChar {exponent back : List Char} {value : Int}
    (h : Exponent exponent value) (hback : AreBlanks back) :
    StopsAt isMantissaChar (exponent ++ back) := by
  cases h with
  | absent =>
    refine stopsAt_blanks hback fun c hc => ?_
    simp only [isMantissaChar, isDigit_of_isBlank hc, Bool.false_or, beq_eq_false_iff_ne]
    rintro rfl
    revert hc
    decide
  | given hmark hsign hne hds =>
    refine stopsAt_cons ?_ _
    rcases hmark with rfl | rfl <;> decide

theorem scanFraction_of_stopsAt {rest : List Char} (h : StopsAt (· == '.') rest) :
    scanFraction rest = ([], rest) := by
  unfold scanFraction
  split
  · simp [StopsAt] at h
  · rfl

/-- A mantissa is scanned in two steps, its whole digits and its fraction. -/
theorem scanMantissa_append {mantissa ds fs rest : List Char} (h : Mantissa mantissa ds fs)
    (hrest : StopsAt isMantissaChar rest) :
    (spanDigits (mantissa ++ rest)).1 = ds
      ∧ scanFraction (spanDigits (mantissa ++ rest)).2 = (fs, rest) := by
  have hdigit : StopsAt Text.isDigit rest := fun c hc => by
    have := hrest c hc
    simp only [isMantissaChar, Bool.or_eq_false_iff] at this
    exact this.1
  have hpoint : StopsAt (· == '.') rest := fun c hc => by
    have := hrest c hc
    simp only [isMantissaChar, Bool.or_eq_false_iff] at this
    exact this.2
  have hstop : ∀ cs, StopsAt Text.isDigit ('.' :: cs) := fun cs => stopsAt_cons (by decide) cs
  cases h with
  | whole hne hds =>
    rw [spanDigits_append hds hdigit]
    exact ⟨rfl, scanFraction_of_stopsAt hpoint⟩
  | pointed hne hds hfs =>
    rw [List.append_assoc, List.cons_append, spanDigits_append hds (hstop _)]
    exact ⟨rfl, spanDigits_append hfs hdigit⟩
  | fraction hne hfs =>
    have hspan : spanDigits ('.' :: (fs ++ rest)) = ([], '.' :: (fs ++ rest)) :=
      spanDigits_append areDigits_nil (hstop (fs ++ rest))
    rw [List.cons_append, hspan]
    exact ⟨rfl, spanDigits_append hfs hdigit⟩

/-- What the two steps find is a mantissa if they find a digit. -/
theorem mantissa_scanFraction {cs fs rest : List Char}
    (hscan : scanFraction (spanDigits cs).2 = (fs, rest))
    (hdigit : (spanDigits cs).1 ≠ [] ∨ fs ≠ []) :
    ∃ mantissa, cs = mantissa ++ rest ∧ Mantissa mantissa (spanDigits cs).1 fs := by
  have hds := areDigits_spanDigits cs
  have happend := append_spanDigits cs
  generalize spanDigits cs = found at hscan hdigit hds happend ⊢
  obtain ⟨ds, behind⟩ := found
  unfold scanFraction at hscan
  split at hscan
  · rename_i inside hbehind
    have hfs := areDigits_spanDigits inside
    have hinside := append_spanDigits inside
    rw [hscan] at hfs hinside
    simp only at hbehind hinside happend hds hfs hdigit ⊢
    by_cases hne : ds = []
    · subst hne
      refine ⟨'.' :: fs, ?_, .fraction (by simpa using hdigit) hfs⟩
      rw [← happend, hbehind, ← hinside]
      simp
    · refine ⟨ds ++ '.' :: fs, ?_, .pointed hne hds hfs⟩
      rw [← happend, hbehind, ← hinside]
      simp
  · cases hscan
    exact ⟨ds, happend.symm, .whole (by simpa using hdigit) hds⟩

/-! ## Whole literals -/

theorem stopsAt_mantissa {p : Char → Bool} {mantissa ds fs : List Char}
    (h : Mantissa mantissa ds fs) (rest : List Char)
    (hdigit : ∀ c, Text.isDigit c = true → p c = false) (hpoint : p '.' = false) :
    StopsAt p (mantissa ++ rest) := by
  have hdigits : ∀ {ds : List Char}, ds ≠ [] → AreDigits ds → ∀ rest, StopsAt p (ds ++ rest) := by
    intro ds hne hds rest
    obtain ⟨d, ds, rfl⟩ := List.exists_cons_of_ne_nil hne
    exact stopsAt_cons (hdigit d (hds d (by simp))) _
  cases h with
  | whole hne hds => exact hdigits hne hds rest
  | pointed hne hds hfs =>
    rw [List.append_assoc]
    exact hdigits hne hds _
  | fraction hne hfs => exact stopsAt_cons hpoint _

theorem isSign_of_isDigit (c : Char) (h : Text.isDigit c = true) : isSign c = false :=
  stopsAt_isSign_digits (List.cons_ne_nil c []) (by simpa [AreDigits] using h) [] c rfl

theorem stopsAt_isBlank_signed {sign mantissa ds fs : List Char} {negative : Bool}
    (hsign : Sign sign negative) (h : Mantissa mantissa ds fs) (rest : List Char) :
    StopsAt Text.isBlank (sign ++ (mantissa ++ rest)) := by
  cases hsign with
  | absent => exact stopsAt_mantissa h rest (fun _ => isBlank_of_isDigit) (by decide)
  | plus => exact stopsAt_cons (by decide) _
  | minus => exact stopsAt_cons (by decide) _

theorem Mantissa.ne_nil {mantissa ds fs : List Char} (h : Mantissa mantissa ds fs) :
    ds ≠ [] ∨ fs ≠ [] := by
  cases h with
  | whole hne hds => exact .inl hne
  | pointed hne hds hfs => exact .inl hne
  | fraction hne hfs => exact .inr hne

/-- The scanner finds every literal. -/
theorem scan_of_spells {cs : List Char} {n : Numeral} (h : Spells cs n) : scan cs = some n := by
  obtain ⟨negative, ds, fs, value⟩ := n
  cases h with
  | @literal front sign mantissa exponent back _ hfront hsign hmantissa hexponent hback =>
    have hblank := dropWhile_append_of_stopsAt hfront
      (stopsAt_isBlank_signed hsign hmantissa (exponent ++ back))
    have hsplit := splitSign_append hsign
      (stopsAt_mantissa hmantissa (exponent ++ back) isSign_of_isDigit (by decide))
    obtain ⟨hwhole, hfraction⟩ := scanMantissa_append hmantissa
      (stopsAt_isMantissaChar hexponent hback)
    have htail := scanExponent_append hexponent hback
    have hall : back.all Text.isBlank = true := List.all_eq_true.2 hback
    have hsome : (ds.isEmpty && fs.isEmpty) = false := by
      rcases hmantissa.ne_nil with hne | hne <;> simp [hne]
    simp only [scan, hblank, hsplit, hwhole, hfraction, htail, hall, hsome]
    rfl

/-- What the scanner finds is a literal. -/
theorem spells_of_scan {cs : List Char} {n : Numeral} (h : scan cs = some n) : Spells cs n := by
  simp only [scan] at h
  obtain ⟨sign, hsplit, hsign⟩ := sign_splitSign (cs.dropWhile Text.isBlank)
  generalize Decimal.splitSign (cs.dropWhile Text.isBlank) = signed at h hsplit hsign
  cases hscan : scanFraction (spanDigits signed.2).2 with
  | mk fs behind =>
    obtain ⟨exponent, htail, hexponent⟩ := exponent_scanExponent behind
    simp only [hscan] at h
    generalize scanExponent behind = found at h htail hexponent
    split at h
    · simp at h
    · rename_i hdigit
      simp only [Bool.or_eq_true, Bool.and_eq_true, List.isEmpty_iff, Bool.not_eq_true',
        not_or, Bool.not_eq_false] at hdigit
      cases h
      have hne : (spanDigits signed.2).1 ≠ [] ∨ fs ≠ [] := by
        by_cases hds : (spanDigits signed.2).1 = []
        · exact .inr fun hfs => hdigit.1 ⟨hds, hfs⟩
        · exact .inl hds
      obtain ⟨mantissa, hunsigned, hmantissa⟩ := mantissa_scanFraction hscan hne
      have hcs : cs = cs.takeWhile Text.isBlank
          ++ (sign ++ (mantissa ++ (exponent ++ found.2))) := by
        rw [← htail, ← hunsigned, ← hsplit, List.takeWhile_append_dropWhile]
      rw [hcs]
      exact .literal (List.all_eq_true.1 List.all_takeWhile) hsign hmantissa hexponent
        (List.all_eq_true.1 hdigit.2)

/-- The scanner finds exactly the literals of the grammar. -/
theorem scan_eq_some_iff (cs : List Char) (n : Numeral) : scan cs = some n ↔ Spells cs n :=
  ⟨spells_of_scan, scan_of_spells⟩

theorem areDigits_of_spells {cs : List Char} {n : Numeral} (h : Spells cs n) :
    AreDigits n.digits := by
  have happend : AreDigits n.whole ∧ AreDigits n.fraction := by
    cases h with
    | literal hfront hsign hmantissa hexponent hback =>
      generalize n.whole = ds at hmantissa ⊢
      generalize n.fraction = fs at hmantissa ⊢
      cases hmantissa with
      | whole hne hds => exact ⟨hds, areDigits_nil⟩
      | pointed hne hds hfs => exact ⟨hds, hfs⟩
      | fraction hne hfs => exact ⟨areDigits_nil, hfs⟩
  intro c hc
  rcases List.mem_append.1 hc with hc | hc
  · exact happend.1 c hc
  · exact happend.2 c hc

end FieldCheck.Numeral
