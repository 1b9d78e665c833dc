/-
FieldCheck.Proofs.Descriptor.Meaning — what a descriptor means.

A descriptor that is composed of a marker, a type token, a bound and a path
asks that the path leads to a value, that the value is there, and that it is
of the type and within the bound. Each of the three is a relation here that
mentions none of the functions that decide it.

* `LeadsTo` — one dictionary after the other holds the next key of the path.
* `IsAbsent` — the seven values that do not count as present.
* `Fits` — what a type token asks of a value. A whole number may be given as
  such, as a floating-point number, or as a decimal literal; the latter two
  have an exact value (`Double.value?`, `Numeral.value`) that has to be whole.

`isMet_compose_iff` puts them together. The record may be any value, and only
numbers that are too long to be written are kept out of it: with them the
length of a decimal form is a fault and not an answer.
-/
import FieldCheck.Proofs.Descriptor.Canonical
import FieldCheck.Proofs.Number.Whole
import FieldCheck.Value.Display

namespace FieldCheck

namespace Value

/-! ## Paths -/

/-- The value is a dictionary that holds another value under a text. The first
entry with that key counts. -/
def Holds (v : Value) (key : String) (w : Value) : Prop :=
  ∃ before after, v = .dict (before ++ (.text key, w) :: after) ∧ ∀ e ∈ before, e.1 ≠ .text key

/-- The keys of a path lead from a value to another, through one dictionary after the other. -/
inductive LeadsTo : Value → List String → Value → Prop
  | here (v : Value) : LeadsTo v [] v
  | step {v w u : Value} {key : String} {rest : List String} (h : v.Holds key w)
      (hrest : LeadsTo w rest u) : LeadsTo v (key :: rest) u

theorem field?_eq_some_iff {v w : Value} {key : String} :
    v.field? key = some w ↔ v.Holds key w := by
  constructor
  · intro h
    cases v with
    | dict es =>
      rw [field?, field, lookup, Option.map_eq_some_iff] at h
      obtain ⟨⟨k, u⟩, hfind, rfl⟩ := h
      obtain ⟨hk, before, after, rfl, hbefore⟩ := List.find?_eq_some_iff_append.1 hfind
      obtain rfl := (sameKey_text key k).1 hk
      refine ⟨before, after, rfl, fun e he heq => ?_⟩
      have hne := hbefore e he
      rw [heq, (sameKey_text key (.text key)).2 rfl] at hne
      exact absurd hne (by simp)
    | _ => simp [field?] at h
  · rintro ⟨before, after, rfl, hbefore⟩
    rw [field?, field, lookup, Option.map_eq_some_iff]
    refine ⟨(.text key, w), List.find?_eq_some_iff_append.2 ?_, rfl⟩
    refine ⟨(sameKey_text key _).2 rfl, before, after, rfl, fun e he => ?_⟩
    have hne := fun heq => hbefore e he ((sameKey_text key e.1).1 heq)
    simpa using hne

/-- A path is followed to a value exactly when it leads there. -/
theorem resolve_eq_some_iff {path : List String} {v u : Value} :
    Path.resolve path v = some u ↔ LeadsTo v path u := by
  induction path generalizing v with
  | nil =>
    rw [Path.resolve_nil, Option.some.injEq]
    constructor
    · rintro rfl
      exact .here v
    · rintro ⟨⟩
      rfl
  | cons key rest ih =>
    rw [Path.resolve_cons, Option.bind_eq_some_iff]
    constructor
    · rintro ⟨w, hw, hrest⟩
      exact .step (field?_eq_some_iff.1 hw) (ih.1 hrest)
    · rintro ⟨⟩
      rename_i w hw hrest
      exact ⟨w, field?_eq_some_iff.2 hw, ih.2 hrest⟩

/-- What a path leads to holds no number that the record does not hold. -/
theorem LeadsTo.isWritable {v u : Value} {path : List String} (h : LeadsTo v path u)
    (hv : v.isWritable = true) : u.isWritable = true := by
  induction h with
  | here v => exact hv
  | @step v w u key rest hw _ ih =>
    obtain ⟨before, after, rfl, -⟩ := hw
    have hmem : (.text key, w) ∈ before ++ (.text key, w) :: after := by simp
    rw [Value.isWritable, entriesWritable_iff] at hv
    exact ih (hv _ hmem).2

/-! ## Presence -/

/-- The values that do not count as present. -/
inductive IsAbsent : Value → Prop
  | null : IsAbsent .null
  | false : IsAbsent (.bool false)
  | text : IsAbsent (.text "")
  | bytes : IsAbsent (.bytes [])
  | list : IsAbsent (.list [])
  | tuple : IsAbsent (.tuple [])
  | dict : IsAbsent (.dict [])

theorem isPresent_iff (v : Value) : v.isPresent = true ↔ ¬ v.IsAbsent := by
  have habsent : ∀ {v : Value}, v.IsAbsent → v.isPresent = false := by
    intro v h
    cases h <;> simp [isPresent, truthy, isNumeric]
  constructor
  · intro h hv
    simp [habsent hv] at h
  · intro h
    cases v with
    | null => exact absurd .null h
    | bool b =>
      cases b with
      | false => exact absurd .false h
      | true => rfl
    | int n => simp [isPresent, isNumeric]
    | float x => simp [isPresent, isNumeric]
    | text s =>
      have hne : s ≠ "" := fun e => h (e ▸ .text)
      simp [isPresent, truthy, hne]
    | bytes bs =>
      have hne : bs ≠ [] := fun e => h (e ▸ .bytes)
      simp [isPresent, truthy, hne]
    | list vs =>
      have hne : vs ≠ [] := fun e => h (e ▸ .list)
      simp [isPresent, truthy, hne]
    | tuple vs =>
      have hne : vs ≠ [] := fun e => h (e ▸ .tuple)
      simp [isPresent, truthy, hne]
    | dict es =>
      have hne : es ≠ [] := fun e => h (e ▸ .dict)
      simp [isPresent, truthy, hne]

/-! ## Types -/

/-- A length is within a bound, if there is one. -/
def Within (bound : Option Nat) (length : Nat) : Prop := ∀ n ∈ bound, length ≤ n

/-- A text of so many characters. -/
inductive IsTextWithin (bound : Option Nat) : Value → Prop
  | text {s : String} (h : Within bound s.length) : IsTextWithin bound (.text s)

/-- A whole number, a floating-point number that is equal to one, or a decimal
literal that stands for one. The bound is on the decimal form of the number
with its sign, but for a literal on the literal as it is written. -/
inductive IsWholeWithin (bound : Option Nat) : Value → Prop
  | int {n : Int} (h : Within bound (Decimal.text n).length) : IsWholeWithin bound (.int n)
  | float {x : Double} {n : Int} (hx : x.value? = some (n : ℚ))
      (h : Within bound (Decimal.text n).length) : IsWholeWithin bound (.float x)
  | literal {s : String} {l : Numeral} {n : Int} (hs : l.Spells s.toList)
      (hrange : l.IsRepresentable) (hl : l.value = n) (h : Within bound s.length) :
      IsWholeWithin bound (.text s)

/-- A truth value, or a text that spells one. -/
inductive IsTruthValue : Value → Prop
  | bool (b : Bool) : IsTruthValue (.bool b)
  | true : IsTruthValue (.text "true")
  | false : IsTruthValue (.text "false")

/-- What a type token and a bound ask of a value. A token that is empty or
names no type asks nothing. -/
structure Fits (token : String) (bound : Option Nat) (v : Value) : Prop where
  text : token = "str" → IsTextWithin bound v
  integer : token = "int" → IsWholeWithin bound v
  boolean : token = "bool" → IsTruthValue v

theorem within_iff (bound : Option Nat) (length : Nat) :
    FieldType.within (bound.map Nat.cast) length = true ↔ Within bound length := by
  cases bound <;> simp [FieldType.within, Within]

theorem accepts_text_iff (bound : Option Nat) (v : Value) :
    ∃ met, FieldType.text.accepts (bound.map Nat.cast) v = .ok met
      ∧ (met = true ↔ IsTextWithin bound v) := by
  cases v with
  | text s =>
    refine ⟨_, rfl, (within_iff bound s.length).trans ⟨.text, ?_⟩⟩
    rintro ⟨h⟩
    exact h
  | _ => exact ⟨false, rfl, by simp, nofun⟩

theorem decimalLength_of_isWritable {n : Int} (h : Decimal.isWritable n = true) :
    decimalLength n = .ok (Decimal.text n).length := by
  simp [decimalLength, h, Decimal.text]

/-- The bound, if there is one, can be compared with the length of the value. For a
whole number that is too long to be written it cannot. -/
def IsMeasurable (bound : Option Nat) (v : Value) : Prop :=
  ∀ n, v = .int n → bound = none ∨ Decimal.isWritable n = true

theorem isMeasurable_of_isWritable (bound : Option Nat) {v : Value} (h : v.isWritable = true) :
    v.IsMeasurable bound := by
  rintro n rfl
  exact .inr h

theorem isIntegral_iff (s : String) :
    Numeral.isIntegral s = true ↔ ∃ (l : Numeral) (n : Int),
      l.Spells s.toList ∧ l.IsRepresentable ∧ l.value = n := by
  have hsome : Numeral.isIntegral s = true ↔
      ∃ l, Numeral.scan s.toList = some l ∧ l.isInteger = true := by
    unfold Numeral.isIntegral
    cases Numeral.scan s.toList <;> simp
  rw [hsome]
  constructor
  · rintro ⟨l, hscan, hint⟩
    have hs := (Numeral.scan_eq_some_iff _ l).1 hscan
    obtain ⟨hrange, hwhole⟩ := l.isInteger_iff.1 hint
    obtain ⟨n, hn⟩ := (Numeral.hasNoFraction_iff (Numeral.areDigits_of_spells hs)).1 hwhole
    exact ⟨l, n, hs, hrange, hn⟩
  · rintro ⟨l, n, hs, hrange, hn⟩
    have hwhole := (Numeral.hasNoFraction_iff (Numeral.areDigits_of_spells hs)).2 ⟨n, hn⟩
    exact ⟨l, (Numeral.scan_eq_some_iff _ l).2 hs, l.isInteger_iff.2 ⟨hrange, hwhole⟩⟩

theorem isIntegerValued_of_isWholeWithin {bound : Option Nat} {v : Value}
    (h : IsWholeWithin bound v) : v.isIntegerValued = true := by
  cases h with
  | int _ => rfl
  | float hx _ => exact (Double.isWhole_iff _).2 ⟨_, (Double.toInt?_eq_some_iff _ _).2 hx⟩
  | literal hs hrange hl _ => exact (isIntegral_iff _).2 ⟨_, _, hs, hrange, hl⟩

/-- A value that counts as whole has a length that bounds are compared with. It is
known unless the value is a number that is too long to be written. -/
theorem exists_length {v : Value} (hwhole : v.isIntegerValued = true) :
    ∃ length, (∀ bound, IsWholeWithin bound v ↔ Within bound length)
      ∧ ((∀ n, v = .int n → Decimal.isWritable n = true) → v.integerLength = .ok length) := by
  cases v with
  | int n =>
    refine ⟨(Decimal.text n).length, fun bound => ⟨fun h => ?_, .int⟩, fun h => ?_⟩
    · cases h with
      | int h => exact h
    · exact decimalLength_of_isWritable (h n rfl)
  | float x =>
    obtain ⟨n, hn⟩ := (Double.isWhole_iff x).1 hwhole
    have hx := (Double.toInt?_eq_some_iff x n).1 hn
    refine ⟨(Decimal.text n).length, fun bound => ⟨fun h => ?_, .float hx⟩, fun _ => ?_⟩
    · cases h with
      | float hx' h =>
        rw [(Double.toInt?_eq_some_iff x _).2 hx', Option.some.injEq] at hn
        exact hn ▸ h
    · rw [integerLength, hn]
      exact decimalLength_of_isWritable (Double.isWritable_of_toInt? hn)
  | text s =>
    obtain ⟨l, n, hs, hrange, hl⟩ := (isIntegral_iff s).1 hwhole
    refine ⟨s.length, fun bound => ⟨fun h => ?_, .literal hs hrange hl⟩, fun _ => rfl⟩
    cases h with
    | literal _ _ _ h => exact h
  | _ => simp [isIntegerValued] at hwhole

theorem accepts_integer_iff (bound : Option Nat) {v : Value} (hv : v.IsMeasurable bound) :
    ∃ met, FieldType.integer.accepts (bound.map Nat.cast) v = .ok met
      ∧ (met = true ↔ IsWholeWithin bound v) := by
  rw [FieldType.accepts]
  cases hwhole : v.isIntegerValued with
  | false =>
    refine ⟨false, rfl, by simp, fun h => ?_⟩
    rw [isIntegerValued_of_isWholeWithin h] at hwhole
    cases hwhole
  | true =>
    obtain ⟨length, hiff, hlength⟩ := exists_length hwhole
    refine ⟨_, ?_, (within_iff bound length).trans (hiff bound).symm⟩
    cases bound with
    | none => rfl
    | some n =>
      simp only [Option.map_some, FieldType.integerWithin,
        hlength fun m hm => (hv m hm).resolve_left (by simp)]
      rfl

theorem isBoolean_iff (v : Value) : v.isBoolean = true ↔ IsTruthValue v := by
  constructor
  · intro h
    cases v with
    | bool b => exact .bool b
    | text s =>
      have hword : s = "true" ∨ s = "false" := by simpa [isBoolean, truthWords] using h
      rcases hword with rfl | rfl
      · exact .true
      · exact .false
    | _ => simp [isBoolean] at h
  · intro h
    cases h <;> simp [isBoolean, truthWords]

/-- A type decides the values that a bound can be compared with, if it has to be. -/
theorem accepts_iff_fits (token : String) (bound : Option Nat) {v : Value}
    (hv : token = "int" → v.IsMeasurable bound) :
    ∃ met, (FieldType.ofToken token).accepts (bound.map Nat.cast) v = .ok met
      ∧ (met = true ↔ Fits token bound v) := by
  by_cases hstr : token = "str"
  · subst hstr
    obtain ⟨met, hmet, h⟩ := accepts_text_iff bound v
    refine ⟨met, hmet, h.trans ⟨fun ht => ⟨fun _ => ht, by simp, by simp⟩, fun hf => hf.text rfl⟩⟩
  by_cases hint : token = "int"
  · subst hint
    obtain ⟨met, hmet, h⟩ := accepts_integer_iff bound (hv rfl)
    exact ⟨met, hmet, h.trans ⟨fun hi => ⟨by simp, fun _ => hi, by simp⟩, fun hf => hf.integer rfl⟩⟩
  by_cases hbool : token = "bool"
  · subst hbool
    exact ⟨v.isBoolean, rfl,
      (isBoolean_iff v).trans ⟨fun hb => ⟨by simp, by simp, fun _ => hb⟩, fun hf => hf.boolean rfl⟩⟩
  · refine ⟨true, ?_, by simpa using ⟨by simp [hstr], by simp [hint], by simp [hbool]⟩⟩
    by_cases hany : token = ""
    · subst hany
      rfl
    · simp [FieldType.ofToken, hstr, hint, hbool, hany]

end Value

/-! ## Descriptors -/

open Value

/-- A requirement is met by what its path leads to, if that is there where it
has to be and the type accepts it. -/
theorem Requirement.isMet_iff_of_isMeasurable {r : Requirement} {bound : Option Nat}
    {record : Value} (htype : r.type = FieldType.ofToken r.token)
    (hbound : r.maxLength = bound.map Nat.cast)
    (hrecord : r.token = "int" → ∀ v, LeadsTo record r.path v → v.IsMeasurable bound) :
    ∃ met, r.isMet record = .ok met ∧ (met = true ↔ ∃ v, LeadsTo record r.path v
      ∧ (r.truthy = true → ¬ v.IsAbsent) ∧ Fits r.token bound v) := by
  rw [Requirement.isMet]
  cases hresolve : Path.resolve r.path record with
  | none =>
    refine ⟨false, rfl, by simp, ?_⟩
    rintro ⟨v, hv, -⟩
    rw [resolve_eq_some_iff.2 hv] at hresolve
    cases hresolve
  | some v =>
    have hleads := resolve_eq_some_iff.1 hresolve
    have honly : (∃ u, LeadsTo record r.path u ∧ (r.truthy = true → ¬ u.IsAbsent)
        ∧ Fits r.token bound u) ↔ (r.truthy = true → ¬ v.IsAbsent) ∧ Fits r.token bound v := by
      constructor
      · rintro ⟨u, hu, hrest⟩
        obtain rfl : v = u := by
          rw [← resolve_eq_some_iff, hresolve, Option.some.injEq] at hu
          exact hu
        exact hrest
      · intro hrest
        exact ⟨v, hleads, hrest⟩
    rw [honly, Requirement.isMetBy, htype, hbound, ← isPresent_iff]
    by_cases hmissing : r.truthy = true ∧ v.isPresent = false
    · exact ⟨false, by simp [hmissing], by simp [hmissing]⟩
    · obtain ⟨met, hmet, hfits⟩ := accepts_iff_fits r.token bound fun hint => hrecord hint v hleads
      have hthere : r.truthy = true → v.isPresent = true := fun htruthy => by
        simpa [htruthy] using hmissing
      refine ⟨met, ?_, hfits.trans ⟨fun hf => ⟨hthere, hf⟩, And.right⟩⟩
      rw [if_neg (by simpa using hthere), hmet]

theorem Requirement.isMet_iff {r : Requirement} {bound : Option Nat} {record : Value}
    (htype : r.type = FieldType.ofToken r.token) (hbound : r.maxLength = bound.map Nat.cast)
    (hrecord : record.isWritable = true) :
    ∃ met, r.isMet record = .ok met ∧ (met = true ↔ ∃ v, LeadsTo record r.path v
      ∧ (r.truthy = true → ¬ v.IsAbsent) ∧ Fits r.token bound v) :=
  isMet_iff_of_isMeasurable htype hbound fun _ _ hv =>
    isMeasurable_of_isWritable bound (hv.isWritable hrecord)

namespace Descriptor

/-- What a descriptor means: checking it is never a fault, and a record meets
it exactly when its path leads to a value that is there if it has to be, and
that its type token and bound accept. -/
theorem isMet_compose_iff (truthy : Bool) (token : String) (bound : Option Nat)
    (path : List String) (record : Value) (htoken : token ∈ ["", "str", "int", "bool"])
    (hbound : ∀ n ∈ bound, n < 10 ^ Decimal.digitLimit) (hne : path ≠ [])
    (hpath : ∀ segment ∈ path, '/' ∉ segment.toList) (hrecord : record.isWritable = true) :
    ∃ met, (isMet (.text (compose truthy token (bound.map Nat.cast) path)) record).result = .ok met
      ∧ (met = true ↔ ∃ v, LeadsTo record path v ∧ (truthy = true → ¬ v.IsAbsent)
        ∧ Fits token bound v) := by
  have hplain : ∀ t ∈ ["", "str", "int", "bool"], '@' ∉ t.toList ∧ ')' ∉ t.toList := by decide
  obtain ⟨hat, hclose⟩ := hplain token htoken
  rw [result_isMet_text, parse_compose truthy hat hclose hbound hne hpath]
  exact Requirement.isMet_iff rfl rfl hrecord

/-- A record with a number, written as a text with blanks around it, that is zero. -/
def zeroRecord : Value := .dict [(.text "contact", .dict [(.text "age", .text " -0.0e7 ")])]

theorem isMet_compose_zero :
    compose true "int" (some 8) ["contact", "age"] = "*(int@8)contact/age"
      ∧ zeroRecord.isWritable = true
      ∧ ∃ met, (isMet (.text "*(int@8)contact/age") zeroRecord).result = .ok met
        ∧ (met = true ↔ ∃ v, LeadsTo zeroRecord ["contact", "age"] v
          ∧ (true = true → ¬ v.IsAbsent) ∧ Fits "int" (some 8) v) := by
  have hbound : ∀ n ∈ some 8, n < 10 ^ Decimal.digitLimit := by
    rintro n ⟨⟩
    exact Nat.lt_of_lt_of_le (by decide : 8 < 10 ^ 1) (Nat.pow_le_pow_right (by decide) (by decide))
  exact ⟨rfl, rfl, isMet_compose_iff true "int" (some 8) ["contact", "age"] zeroRecord (by decide)
    hbound (by decide) (by decide) rfl⟩

end Descriptor

end FieldCheck
