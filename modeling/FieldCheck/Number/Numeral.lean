/-
FieldCheck.Number.Numeral — decimal literals in texts.

A numeral is a text with an optional sign, digits with an optional point and
fraction (or a point and a fraction alone), and an optional exponent; blanks
may stand around it and nowhere inside. Digits of every script count. Words
for infinity, other bases and separators between digits are no numerals.

`Numeral.scan` reads a numeral and `Numeral.isInteger` decides whether its
value is a whole number. The decision looks at the digits and the exponent
only, so it is exact for any size. Numerals beyond the range of `Numeral.
IsRepresentable` have no value and are no whole numbers.
-/
import FieldCheck.Number.Decimal
import FieldCheck.Text.Blank
import FieldCheck.Text.DecimalDigit

namespace FieldCheck

/-- The parts of a decimal literal: its sign, the digits in front of the
point and behind it, and the exponent. -/
structure Numeral where
  negative : Bool
  whole : List Char
  fraction : List Char
  exponent : Int
  deriving DecidableEq, Repr

namespace Numeral

/-! ## Reading -/

/-- The digits in front and what is behind them. -/
def spanDigits (cs : List Char) : List Char × List Char :=
  (cs.takeWhile Text.isDigit, cs.dropWhile Text.isDigit)

/-- The digits of a fraction behind a point; without a point there is none. -/
def scanFraction : List Char → List Char × List Char
  | '.' :: rest => spanDigits rest
  | cs => ([], cs)

/-- The number that digits of any script stand for. -/
def magnitude (ds : List Char) : Nat :=
  ds.foldl (fun n d => 10 * n + (Text.digitValue d).getD 0) 0

/-- The value of an exponent; where no exponent with a digit stands it is zero. -/
def scanExponent : List Char → Int × List Char
  | c :: rest =>
    if c = 'e' ∨ c = 'E' then
      let (negative, behind) := Decimal.splitSign rest
      match spanDigits behind with
      | ([], _) => (0, c :: rest)
      | (ds, left) => (Decimal.withSign negative (magnitude ds), left)
    else (0, c :: rest)
  | [] => (0, [])

/-- The numeral that the whole text is, if it is one. -/
def scan (cs : List Char) : Option Numeral :=
  let (negative, unsigned) := Decimal.splitSign (cs.dropWhile Text.isBlank)
  let (whole, rest) := spanDigits unsigned
  let (fraction, rest) := scanFraction rest
  let (exponent, rest) := scanExponent rest
  if (whole.isEmpty && fraction.isEmpty) || !rest.all Text.isBlank then none
  else some ⟨negative, whole, fraction, exponent⟩

/-! ## Whole numbers -/

/-- All digits, in front of the point and behind it. -/
def digits (n : Numeral) : List Char := n.whole ++ n.fraction

/-- The digits from the first one on that is not zero. -/
def significant (n : Numeral) : List Char :=
  n.digits.dropWhile fun d => Text.digitValue d == some 0

/-- How many zeros stand at the end of the digits. -/
def trailingZeros (n : Numeral) : Nat :=
  (n.digits.reverse.takeWhile fun d => Text.digitValue d == some 0).length

/-- The power of ten that the last digit stands for. -/
def scale (n : Numeral) : Int := n.exponent - (n.fraction.length : Int)

/-- Every digit is a zero. -/
def isZero (n : Numeral) : Bool := n.significant.isEmpty

/-- The power of ten that the leading digit stands for; for a zero, that of its last digit. -/
def leadingPower (n : Numeral) : Int :=
  if n.isZero then n.scale else n.scale + (n.significant.length - 1 : Nat)

/-- The greatest power of ten of a leading digit. -/
def greatestPower : Int := 999999999999999999

/-- The least power of ten of a last digit. -/
def leastPower : Int := -1999999999999999997

/-- The numeral is in the range of exact decimal arithmetic. -/
def IsRepresentable (n : Numeral) : Prop :=
  n.leadingPower ≤ greatestPower ∧ leastPower ≤ n.scale

instance (n : Numeral) : Decidable n.IsRepresentable := inferInstanceAs (Decidable (_ ∧ _))

/-- The digits behind the point are all zeros once the exponent has moved the point. -/
def HasNoFraction (n : Numeral) : Prop := n.isZero = true ∨ -n.scale ≤ n.trailingZeros

instance (n : Numeral) : Decidable n.HasNoFraction := inferInstanceAs (Decidable (_ ∨ _))

/-- The numeral has a value and the value is a whole number. -/
def isInteger (n : Numeral) : Bool := decide (n.IsRepresentable ∧ n.HasNoFraction)

theorem isInteger_iff (n : Numeral) :
    n.isInteger = true ↔ n.IsRepresentable ∧ n.HasNoFraction := decide_eq_true_iff

/-! ## Texts -/

/-- The text is a numeral. -/
def isNumeral (s : String) : Bool := (scan s.toList).isSome

/-- The text is a numeral whose value is a whole number. -/
def isIntegral (s : String) : Bool := ((scan s.toList).map isInteger).getD false

example : isIntegral "1500e-2" = true ∧ isIntegral "-3.140E1" = false := by decide +kernel
example : isNumeral " .5\n" = true ∧ isNumeral "." = false ∧ isNumeral "1 2" = false := by
  decide +kernel

/-- A text without characters is no numeral. -/
@[simp] theorem isNumeral_empty : isNumeral "" = false := by decide +kernel

end Numeral

end FieldCheck
