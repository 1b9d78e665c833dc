/-
FieldCheck.Schema — shapes that values are required to have.

A schema is a list of rules, and a value has to keep them all. A rule speaks
about values of one kind and holds of all others: `required` about
dictionaries, `items` about lists, `minLength` about texts. Only `kind`
speaks about every value.

`violations` lists what a value does wrong, each with the place of the rule
in the schema and of the offending part in the value. They are reported in
the order of their full descriptions, so the order in which rules are
checked does not matter. A value without violations is accepted.
-/
import FieldCheck.Number.Double
import FieldCheck.Value.Display

namespace FieldCheck

/-! ## Rules -/

/-- The kinds of values that a schema tells apart. -/
inductive Kind where
  | object
  | array
  | text
  | number
  deriving DecidableEq, Repr

/-- The name of a kind. -/
def Kind.name : Kind → String
  | object => "object"
  | array => "array"
  | text => "string"
  | number => "number"

/-- The value is of the kind. Truth values are no numbers. -/
def Kind.holds : Kind → Value → Bool
  | object, .dict _ => true
  | array, .list _ => true
  | text, .text _ => true
  | number, .int _ => true
  | number, .float _ => true
  | _, _ => false

/-- A set of texts, with the expression that describes it. -/
structure Pattern where
  source : String
  accepts : List Char → Bool

/-- A rule for values. -/
inductive Rule where
  /-- The value is of a kind. -/
  | kind (k : Kind)
  /-- A dictionary has a key. -/
  | required (key : String)
  /-- The value under a key keeps some rules. -/
  | property (key : String) (rules : List Rule)
  /-- The items of a list keep some rules. -/
  | items (rules : List Rule)
  /-- One of two lists of rules is kept. -/
  | either (first second : List Rule)
  /-- A text is not empty. -/
  | nonEmpty
  /-- A number is not less than zero. -/
  | nonNegative
  /-- A text is in a set. -/
  | pattern (p : Pattern)
  /-- The value is one of some texts. -/
  | oneOf (words : List String)

/-- A list of rules, all of which have to be kept. -/
abbrev Schema := List Rule

/-! ## Places -/

/-- A step into a value or a schema. -/
inductive Step where
  | key (s : String)
  | index (n : Nat)
  deriving DecidableEq, Repr

/-- A step as it is written in a path of its own. -/
def Step.plain : Step → String
  | key s => s
  | index n => Decimal.text n

/-- A step behind the name of a value. -/
def Step.bracketed : Step → String
  | key s => "[" ++ Text.quote s ++ "]"
  | index n => "[" ++ Decimal.text n ++ "]"

/-- Where in a schema and in a value a rule is checked. -/
structure Place where
  inSchema : List Step
  inValue : List Step
  deriving DecidableEq, Repr

namespace Place

/-- The whole schema and the whole value. -/
def top : Place := ⟨[], []⟩

/-- The place of the rules for the value under a key. -/
def property (p : Place) (key : String) : Place :=
  ⟨p.inSchema ++ [.key "properties", .key key], p.inValue ++ [.key key]⟩

/-- The place of the rules for an item. -/
def item (p : Place) (i : Nat) : Place :=
  ⟨p.inSchema ++ [.key "items"], p.inValue ++ [.index i]⟩

end Place

/-! ## Violations -/

/-- A rule that a part of a value does not keep. -/
structure Violation where
  message : String
  keyword : String
  place : Place
  part : Value

namespace Violation

/-- The start of the full description, as far as descriptions differ. -/
def description (x : Violation) : String :=
  x.message ++ "\n\nFailed validating " ++ Text.quote x.keyword ++ " in schema"
    ++ String.join (x.place.inSchema.map Step.bracketed) ++ ":\n\nOn instance"
    ++ String.join (x.place.inValue.map Step.bracketed) ++ ":"

/-- A violation on one line: the path to the part, or a name for the whole, and the message. -/
def line (whole : String) (x : Violation) : String :=
  let path := "/".intercalate (x.place.inValue.map Step.plain)
  (if path.isEmpty then whole else path) ++ ": " ++ x.message

/-- The order in which violations are reported. -/
def notAfter (x y : Violation) : Bool := !decide (y.description < x.description)

end Violation

/-- The literals of texts. -/
def wordList (ss : List String) : String := Value.quoted (.list (ss.map .text))

/-- The value is less than zero. Nothing but numbers is. -/
def isNegative : Value → Bool
  | .int n => n < 0
  | .float x => x.ltInt 0
  | _ => false

mutual

/-- What a value does wrong by one rule. -/
def Rule.violations (p : Place) : Rule → Value → List Violation
  | .kind k, v =>
    if k.holds v then []
    else [⟨v.quoted ++ " is not of type " ++ Text.quote k.name, "type", p, v⟩]
  | .required key, v =>
    match v with
    | .dict es =>
      if (Value.field key es).isSome then []
      else [⟨Text.quote key ++ " is a required property", "required", p, v⟩]
    | _ => []
  | .property key rules, v =>
    match v.field? key with
    | some w => Schema.violations (p.property key) rules w
    | none => []
  | .items rules, v =>
    match v with
    | .list xs => xs.zipIdx.flatMap fun x => Schema.violations (p.item x.2) rules x.1
    | _ => []
  | .either first second, v =>
    if (Schema.violations p first v).isEmpty || (Schema.violations p second v).isEmpty then []
    else [⟨v.quoted ++ " is not valid under any of the given schemas", "anyOf", p, v⟩]
  | .nonEmpty, v =>
    match v with
    | .text s =>
      if s.isEmpty then [⟨v.quoted ++ " should be non-empty", "minLength", p, v⟩] else []
    | _ => []
  | .nonNegative, v =>
    if isNegative v then [⟨v.quoted ++ " is less than the minimum of 0", "minimum", p, v⟩] else []
  | .pattern q, v =>
    match v with
    | .text s =>
      if q.accepts s.toList then []
      else [⟨v.quoted ++ " does not match " ++ Text.quote q.source, "pattern", p, v⟩]
    | _ => []
  | .oneOf words, v =>
    match v with
    | .text s =>
      if words.contains s then []
      else [⟨v.quoted ++ " is not one of " ++ wordList words, "enum", p, v⟩]
    | _ => [⟨v.quoted ++ " is not one of " ++ wordList words, "enum", p, v⟩]

/-- What a value does wrong by any of the rules. -/
def Schema.violations (p : Place) : List Rule → Value → List Violation
  | [], _ => []
  | r :: rest, v => r.violations p v ++ Schema.violations p rest v

end

/-! ## Acceptance -/

namespace Schema

/-- The value keeps all rules. -/
def accepts (s : Schema) (v : Value) : Bool := (violations .top s v).isEmpty

/-- The violations of a schema on one line, in the order in which they are reported. -/
def details (whole : String) (s : Schema) (v : Value) : String :=
  "; ".intercalate (((violations .top s v).mergeSort Violation.notAfter).map (·.line whole))

/-- The violations of a schema, if there are any. To describe them their
parts are written, and a number that is too long to be written is a fault. -/
def complaints (whole : String) (s : Schema) (v : Value) : Except Fault (Option String) :=
  if s.accepts v then .ok none
  else if (violations .top s v).all (·.part.isWritable) then .ok (some (s.details whole v))
  else .error .tooLongToWrite

theorem accepts_cons (r : Rule) (s : Schema) (v : Value) :
    accepts (r :: s) v = ((r.violations .top v).isEmpty && accepts s v) := by
  simp only [accepts, violations]
  cases r.violations .top v <;> rfl

theorem complaints_eq_none_iff (whole : String) (s : Schema) (v : Value) :
    s.complaints whole v = .ok none ↔ s.accepts v = true := by
  unfold complaints
  split
  · simp_all
  split <;> simp_all

end Schema

end FieldCheck
