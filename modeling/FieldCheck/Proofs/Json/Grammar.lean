/-
FieldCheck.Proofs.Json.Grammar — the grammar of the standard for JSON texts.

The grammar is stated as relations, without any scanner. Numbers have the form

    minus whole fraction exponent

where all but the whole part may be missing, and the whole part is a zero alone
or digits that do not start with one. Texts hold no control characters, and a
backslash only in front of one of eight letters or of a `u` with four hexadecimal
digits. `Derives` is the part of the grammar that is recursive: values, and the
items and members inside of them with the blanks around them.

There are no words for numbers that are infinite or not a number. The reader
knows such words and the writer has them, so neither of the two decides the
grammar.
-/
import FieldCheck.Json.Reader
import FieldCheck.Proofs.Number.Literal

namespace FieldCheck.Json.Strict

open FieldCheck.Numeral (Sign)

/-! ## Numbers -/

/-- All characters are digits from 0 to 9. -/
def AreDigits (cs : List Char) : Prop := ∀ c ∈ cs, c.isDigit = true

/-- The whole part of a number: a zero alone, or digits that start with another one. -/
inductive IsWhole : List Char → Prop
  | zero : IsWhole ['0']
  | digits {c : Char} {ds : List Char} (hc : c.isDigit = true) (hzero : c ≠ '0')
      (hds : AreDigits ds) : IsWhole (c :: ds)

/-- A fraction, which may be missing, and its digits. -/
inductive IsFraction : List Char → List Char → Prop
  | absent : IsFraction [] []
  | given {ds : List Char} (hne : ds ≠ []) (hds : AreDigits ds) : IsFraction ('.' :: ds) ds

/-- An exponent, which may be missing, and its value. -/
inductive IsExponent : List Char → Option Int → Prop
  | absent : IsExponent [] none
  | given {mark : Char} {sign ds : List Char} {negative : Bool} (hmark : mark = 'e' ∨ mark = 'E')
      (hsign : Sign sign negative) (hne : ds ≠ []) (hds : AreDigits ds) :
      IsExponent (mark :: (sign ++ ds)) (some (Decimal.withSign negative (Decimal.value ds)))

/-- A number without its sign. -/
inductive IsMagnitude : List Char → Prop
  | parts {whole fraction ds exponent : List Char} {e : Option Int} (hwhole : IsWhole whole)
      (hfraction : IsFraction fraction ds) (hexponent : IsExponent exponent e) :
      IsMagnitude (whole ++ (fraction ++ exponent))

/-- A number. -/
inductive IsNumber : List Char → Prop
  | positive {cs : List Char} (h : IsMagnitude cs) : IsNumber cs
  | negative {cs : List Char} (h : IsMagnitude cs) : IsNumber ('-' :: cs)

/-! ## Texts -/

/-- The letters that may stand behind a backslash. -/
def escapeLetters : List Char := ['"', '\\', '/', 'b', 'f', 'n', 'r', 't']

/-- One character of a text, as it is or behind a backslash. -/
inductive IsTextChar : List Char → Prop
  | plain {c : Char} (hcontrol : 0x20 ≤ c.toNat) (hmark : c ≠ '"') (hescape : c ≠ '\\') :
      IsTextChar [c]
  | letter {c : Char} (h : c ∈ escapeLetters) : IsTextChar ['\\', c]
  | code {ds : List Char} (hlength : ds.length = 4)
      (hds : ∀ d ∈ ds, (Text.hexValue d).isSome = true) : IsTextChar ('\\' :: 'u' :: ds)

/-- A text in quotation marks. -/
inductive IsQuoted : List Char → Prop
  | mk {parts : List (List Char)} (h : ∀ p ∈ parts, IsTextChar p) :
      IsQuoted ('"' :: (parts.flatten ++ ['"']))

/-! ## Values -/

/-- All characters may stand between tokens. -/
def AreGaps (cs : List Char) : Prop := ∀ c ∈ cs, isGap c = true

/-- What the recursive rules of the grammar are about. -/
inductive Symbol where
  | value
  | items
  | members

/-- The words for nothing and for truth values. -/
def words : List (List Char) :=
  [['n', 'u', 'l', 'l'], ['t', 'r', 'u', 'e'], ['f', 'a', 'l', 's', 'e']]

/-- A text that the grammar has for a symbol. -/
inductive Derives : Symbol → List Char → Prop
  | word {cs : List Char} (h : cs ∈ words) : Derives .value cs
  | number {cs : List Char} (h : IsNumber cs) : Derives .value cs
  | text {cs : List Char} (h : IsQuoted cs) : Derives .value cs
  | emptyArray {gap : List Char} (hgap : AreGaps gap) : Derives .value ('[' :: (gap ++ [']']))
  | array {body : List Char} (h : Derives .items body) : Derives .value ('[' :: (body ++ [']']))
  | emptyObject {gap : List Char} (hgap : AreGaps gap) :
      Derives .value ('\x7b' :: (gap ++ ['\x7d']))
  | object {body : List Char} (h : Derives .members body) :
      Derives .value ('\x7b' :: (body ++ ['\x7d']))
  | lastItem {front v back : List Char} (hfront : AreGaps front) (h : Derives .value v)
      (hback : AreGaps back) : Derives .items (front ++ (v ++ back))
  | item {front v back rest : List Char} (hfront : AreGaps front) (h : Derives .value v)
      (hback : AreGaps back) (hrest : Derives .items rest) :
      Derives .items (front ++ (v ++ (back ++ ',' :: rest)))
  | lastMember {front name gap between v back : List Char} (hfront : AreGaps front)
      (hname : IsQuoted name) (hgap : AreGaps gap) (hbetween : AreGaps between)
      (h : Derives .value v) (hback : AreGaps back) :
      Derives .members (front ++ (name ++ (gap ++ ':' :: (between ++ (v ++ back)))))
  | member {front name gap between v back rest : List Char} (hfront : AreGaps front)
      (hname : IsQuoted name) (hgap : AreGaps gap) (hbetween : AreGaps between)
      (h : Derives .value v) (hback : AreGaps back) (hrest : Derives .members rest) :
      Derives .members
        (front ++ (name ++ (gap ++ ':' :: (between ++ (v ++ (back ++ ',' :: rest))))))

/-- A whole text: one value with blanks around it. -/
inductive IsText : List Char → Prop
  | mk {front v back : List Char} (hfront : AreGaps front) (h : Derives .value v)
      (hback : AreGaps back) : IsText (front ++ (v ++ back))

/-! ## Small laws -/

theorem areGaps_nil : AreGaps [] := by simp [AreGaps]

theorem areGaps_blank : AreGaps [' '] := by simp [AreGaps, isGap]

theorem Derives.isText {cs : List Char} (h : Derives .value cs) : IsText cs := by
  have htext := IsText.mk areGaps_nil h areGaps_nil
  rwa [List.nil_append, List.append_nil] at htext

theorem areDigits_nil : AreDigits [] := by simp [AreDigits]

theorem areDigits_append {ds es : List Char} (hds : AreDigits ds) (hes : AreDigits es) :
    AreDigits (ds ++ es) := by
  intro c hc
  rcases List.mem_append.1 hc with hc | hc
  · exact hds c hc
  · exact hes c hc

theorem IsWhole.areDigits {ds : List Char} (h : IsWhole ds) : AreDigits ds := by
  cases h with
  | zero => simp [AreDigits]
  | digits hc _ hds => exact List.forall_mem_cons.2 ⟨hc, hds⟩

/-! ## Characters of numbers -/

/-- The characters of numbers that are no digits. -/
def numberMarks : List Char := ['-', '+', '.', 'e', 'E']

/-- A character that a number may have. -/
def IsNumberChar (c : Char) : Prop := c.isDigit = true ∨ c ∈ numberMarks

theorem IsFraction.isNumberChar {cs ds : List Char} (h : IsFraction cs ds) {c : Char}
    (hc : c ∈ cs) : IsNumberChar c := by
  cases h with
  | absent => simp at hc
  | given _ hds =>
    rcases List.mem_cons.1 hc with rfl | hc
    · exact .inr (by decide)
    · exact .inl (hds c hc)

theorem IsExponent.isNumberChar {cs : List Char} {e : Option Int} (h : IsExponent cs e) {c : Char}
    (hc : c ∈ cs) : IsNumberChar c := by
  cases h with
  | absent => simp at hc
  | given hmark hsign _ hds =>
    rcases List.mem_cons.1 hc with rfl | hc
    · rcases hmark with rfl | rfl <;> exact .inr (by decide)
    rcases List.mem_append.1 hc with hc | hc
    · cases hsign with
      | absent => simp at hc
      | plus => exact .inr (by rw [List.mem_singleton.1 hc]; decide)
      | minus => exact .inr (by rw [List.mem_singleton.1 hc]; decide)
    · exact .inl (hds c hc)

theorem IsMagnitude.isNumberChar {cs : List Char} (h : IsMagnitude cs) {c : Char} (hc : c ∈ cs) :
    IsNumberChar c := by
  obtain ⟨hwhole, hfraction, hexponent⟩ := h
  rcases List.mem_append.1 hc with hc | hc
  · exact .inl (hwhole.areDigits c hc)
  rcases List.mem_append.1 hc with hc | hc
  · exact hfraction.isNumberChar hc
  · exact hexponent.isNumberChar hc

theorem IsNumber.isNumberChar {cs : List Char} (h : IsNumber cs) {c : Char} (hc : c ∈ cs) :
    IsNumberChar c := by
  cases h with
  | positive h => exact h.isNumberChar hc
  | negative h =>
    rcases List.mem_cons.1 hc with rfl | hc
    · exact .inr (by decide)
    · exact h.isNumberChar hc

end FieldCheck.Json.Strict
