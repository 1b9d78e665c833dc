/-
FieldCheck.Number.Shortest — floating-point numbers as short decimals.

A magnitude is written with the fewest significant digits that read back as
the same number. Among the numbers of that many digits that read back, the
nearest is taken, and of two equally near ones the one whose last digit is
even. `shortest` looks at the two neighbours of the magnitude on the decimal
grid of one digit, of two digits and so on up to seventeen; behind them
stands the exact expansion, so that there is always an answer.

`Layout` holds the decisions of the written form that are a matter of
convention, and `Double.layout` is the one used here: positional from 10^-4
up to below 10^16, with `.0` behind a whole number, and otherwise with an
exponent of at least two digits and its sign.
-/
import FieldCheck.Number.Double

namespace FieldCheck.Double

/-! ## The shortest digits -/

/-- A number `coefficient * 10 ^ exponent`. -/
structure Scientific where
  coefficient : Nat
  exponent : Int
  deriving DecidableEq, Repr

/-- The position of the decimal point of a magnitude relative to its first
significant digit: the least `p` with the magnitude below `10 ^ p`. -/
def pointPosition (u : Nat) : Int :=
  if unitsPerOne ≤ u then (Decimal.digits (u / unitsPerOne)).length
  else -((List.range 324).takeWhile fun j => u * 10 ^ (j + 1) < unitsPerOne).length

/-- The points of the grid of multiples of `10 ^ exponent` next to `u`
units, the nearer one first; of two equally near ones the even one. -/
def gridPoints (u : Nat) (exponent : Int) : List Nat :=
  let num := if exponent < 0 then u * 10 ^ exponent.natAbs else u
  let den := if exponent < 0 then unitsPerOne else unitsPerOne * 10 ^ exponent.toNat
  let low := num / den
  let rest := num % den
  if rest = 0 then [low]
  else if 2 * rest < den ∨ (2 * rest = den ∧ low % 2 = 0) then [low, low + 1]
  else [low + 1, low]

/-- The decimal reads as the positive number with this code. -/
def readsAs (code : Nat) (d : Scientific) : Bool :=
  match ofDecimal false d.coefficient d.exponent with
  | .finite false c _ => c = code
  | _ => false

/-- The candidates for the decimal form of a magnitude, in order of preference. -/
def candidates (code : Nat) : List Scientific :=
  let u := units code
  let p := pointPosition u
  (List.range 17).flatMap fun n =>
    let exponent : Int := p - (n + 1 : Nat)
    (gridPoints u exponent).map fun d => ⟨d, exponent⟩

/-- The exact decimal expansion of a magnitude. -/
def expansion (code : Nat) : Scientific := ⟨units code * 5 ^ 1074, -1074⟩

/-- The shortest decimal that reads as the magnitude with this code. -/
def shortest (code : Nat) : Scientific :=
  ((candidates code).find? (readsAs code)).getD (expansion code)

/-! ## Layout -/

/-- How a decimal is laid out: the positions of the decimal point between
which it is written without an exponent, and the least number of digits of
an exponent. -/
structure Layout where
  leastPoint : Int
  greatestPoint : Int
  exponentWidth : Nat
  deriving Repr

/-- The layout of floating-point numbers. -/
def layout : Layout := ⟨-3, 16, 2⟩

/-- A list of digits without the zeros at its end. -/
def dropZeros (ds : List Char) : List Char := (ds.reverse.dropWhile (· == '0')).reverse

/-- `n` zeros. -/
def zeros (n : Nat) : List Char := List.replicate n '0'

/-- Digits with a decimal point at a position. -/
def Layout.positional (ds : List Char) (point : Int) : List Char :=
  if point ≤ 0 then '0' :: '.' :: zeros point.natAbs ++ ds
  else if ds.length ≤ point.toNat then ds ++ zeros (point.toNat - ds.length) ++ ['.', '0']
  else ds.take point.toNat ++ '.' :: ds.drop point.toNat

/-- An exponent with its sign and at least the layout's number of digits. -/
def Layout.exponent (l : Layout) (e : Int) : List Char :=
  let ds := Decimal.digits e.natAbs
  'e' :: (if e < 0 then '-' else '+') :: zeros (l.exponentWidth - ds.length) ++ ds

/-- Digits with an exponent. -/
def Layout.scientific (l : Layout) (ds : List Char) (point : Int) : List Char :=
  ds.take 1 ++ (if ds.length ≤ 1 then [] else '.' :: ds.drop 1) ++ l.exponent (point - 1)

/-- A decimal laid out. -/
def Layout.render (l : Layout) (d : Scientific) : List Char :=
  let all := Decimal.digits d.coefficient
  let ds := dropZeros all
  let point := d.exponent + all.length
  if d.coefficient = 0 then ['0', '.', '0']
  else if l.leastPoint ≤ point ∧ point ≤ l.greatestPoint then Layout.positional ds point
  else l.scientific ds point

/-! ## Whole texts -/

/-- A sign in front of digits. -/
def signed (negative : Bool) (cs : List Char) : List Char := if negative then '-' :: cs else cs

/-- The written form of a number. -/
def chars : Double → List Char
  | .nan => ['n', 'a', 'n']
  | .infinite s => signed s ['i', 'n', 'f']
  | .finite s c _ => signed s (layout.render (shortest c))

/-- The written form of a number, as a text. -/
def text (x : Double) : String := String.ofList x.chars

/-- The number rounded to a whole one, a half to the even one. -/
def roundedChars : Double → List Char
  | .nan => ['n', 'a', 'n']
  | .infinite s => signed s ['i', 'n', 'f']
  | .finite s c _ => signed s (Decimal.digits (roundHalfEven (units c) unitsPerOne))

end FieldCheck.Double
