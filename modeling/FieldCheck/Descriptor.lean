/-
FieldCheck.Descriptor — reading field descriptors.

A descriptor is an optional `*`, an optional constraint in parentheses and a
path: `*(str@50)contact/email`. It is read in three steps that never look
back. The marker comes off the front. A text that then starts with `(` and
holds a `)` has a constraint up to the first `)`: a type token, and behind
the first `@` a length. What is left is the path, split at every `/`.

Every text is a descriptor. An unmatched parenthesis belongs to the path, an
unknown token or a malformed length is noted and otherwise ignored. The one
fault is a length with more digits than can be read.
-/
import FieldCheck.Requirement
import FieldCheck.Text.Blank
import FieldCheck.Value

namespace FieldCheck

namespace Descriptor

/-! ## The marker -/

/-- Whether the marker stands in front, and what is behind it. -/
def splitMarker : List Char → Bool × List Char
  | '*' :: rest => (true, rest)
  | cs => (false, cs)

/-! ## The constraint -/

/-- The pieces of a descriptor behind its marker. -/
structure Pieces where
  token : List Char
  length : Option (List Char)
  path : List Char
  notes : List Note
  deriving DecidableEq, Repr

/-- The note on parts of a constraint that are too many. -/
def extraNotes (parts : List (List Char)) : List Note :=
  if parts.isEmpty then [] else [.extraParts (parts.map String.ofList)]

/-- The pieces of a constraint, in front of a path. -/
def constraintPieces (constraint path : List Char) : Pieces :=
  match constraint.splitOn '@' with
  | [] => ⟨[], none, path, []⟩
  | [token] => ⟨token, none, path, []⟩
  | token :: length :: extra => ⟨token, some length, path, extraNotes extra⟩

/-- The pieces of a descriptor behind its marker. -/
def splitConstraint (cs : List Char) : Pieces :=
  match cs with
  | '(' :: rest =>
    match rest.dropWhile (· != ')') with
    | _ :: path => constraintPieces (rest.takeWhile (· != ')')) path
    | [] => ⟨[], none, cs, [.unmatched]⟩
  | _ => ⟨[], none, cs, []⟩

/-! ## The length -/

/-- A run of one or more ASCII digits. -/
def isLength (cs : List Char) : Bool := !cs.isEmpty && cs.all Char.isDigit

/-- The number that a length stands for, which may have blanks around it;
none for a text that is no length. -/
def readLength (token : List Char) : Except Fault (Option Nat) :=
  let ds := Text.trim token
  if !isLength ds then .ok none
  else if ds.length ≤ Decimal.digitLimit then .ok (some (Decimal.value ds))
  else .error (.tooLongToRead ds.length)

/-- The bound that a constraint gives, and the note on a malformed length. -/
def bound : Option (List Char) → Except Fault (Option Int × List Note)
  | none => .ok (none, [])
  | some token =>
    (readLength token).map fun
      | some n => (some (n : Int), [])
      | none => (none, [.invalidLength (String.ofList token)])

/-! ## Whole descriptors -/

/-- The segments of a path. -/
def segments (path : List Char) : List String := (path.splitOn '/').map String.ofList

/-- The note on a type token that names no type. -/
def typeNotes (token : String) : List Note :=
  if FieldType.ofToken token = .unknown then [.unknownType token] else []

/-- The requirement that the pieces of a descriptor and its bound make. -/
def assemble (truthy : Bool) (p : Pieces) (b : Option Int × List Note) : Requirement :=
  let token := String.ofList p.token
  { truthy := truthy
    type := FieldType.ofToken token
    maxLength := b.1
    path := segments p.path
    token := token
    notes := p.notes ++ typeNotes token ++ b.2 }

/-- The requirement that a descriptor stands for, from the text behind its marker on. -/
def parseUnmarked (truthy : Bool) (cs : List Char) : Except Fault Requirement :=
  (bound (splitConstraint cs).length).map (assemble truthy (splitConstraint cs))

/-- The requirement that a descriptor stands for. -/
def parseChars (cs : List Char) : Except Fault Requirement :=
  parseUnmarked (splitMarker cs).1 (splitMarker cs).2

/-- The requirement that a descriptor stands for. -/
def parse (descriptor : String) : Except Fault Requirement := parseChars descriptor.toList

/-- Reads a descriptor and logs what was not understood. -/
def parseLogged (descriptor : String) : Traced Requirement :=
  match parse descriptor with
  | .error f => .fail f
  | .ok r => ⟨.ok r, r.log descriptor⟩

/-- Reads a descriptor given as a value, which has to be a text. -/
def parseValue : Value → Traced Requirement
  | .text s => parseLogged s
  | v => .fail (.descriptorNotText v.kind)

/-! ## Laws of the pieces -/

@[simp] theorem result_parseLogged (d : String) : (parseLogged d).result = parse d := by
  unfold parseLogged
  split <;> simp_all [Traced.fail]

/-- A marker in front turns the requirement of a descriptor without one truthy. -/
theorem parseChars_marker (cs : List Char) (h : (splitMarker cs).1 = false) :
    parseChars ('*' :: cs) = (parseChars cs).map fun r => { r with truthy := true } := by
  have hcs : splitMarker cs = (false, cs) := by
    unfold splitMarker at h ⊢
    split <;> simp_all
  have hm : splitMarker ('*' :: cs) = (true, cs) := rfl
  rw [parseChars, parseChars, hcs, hm, parseUnmarked, parseUnmarked]
  cases bound (splitConstraint cs).length <;> rfl

/-- Only a constraint with a length of too many digits is a fault. -/
theorem readLength_eq_error_iff (token : List Char) (f : Fault) :
    readLength token = .error f ↔
      isLength (Text.trim token) = true ∧ Decimal.digitLimit < (Text.trim token).length
        ∧ f = .tooLongToRead (Text.trim token).length := by
  unfold readLength
  by_cases h : isLength (Text.trim token) = true
  · by_cases hl : (Text.trim token).length ≤ Decimal.digitLimit
    · simp [h, hl, Nat.not_lt.2 hl]
    · simp [h, hl, Nat.lt_of_not_le hl, eq_comm]
  · simp [h]

end Descriptor

end FieldCheck
