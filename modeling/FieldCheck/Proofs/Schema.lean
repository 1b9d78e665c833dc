/-
FieldCheck.Proofs.Schema — what it means that a value keeps a schema.

`Rule.Holds` is the meaning of each rule: a rule for texts, numbers, lists or
dictionaries says nothing about values of other kinds, and a rule about a key
says nothing where the key is missing. A value has no violations of a rule
exactly when the rule holds (`violations_eq_nil_iff`), at any place, so being
accepted can be read off the rules alone (`accepts_iff`).

The violations of a value point to parts of it. A value without numbers that
are too long to be written can therefore always be complained about.
-/
import FieldCheck.Schema

namespace FieldCheck

/-! ## The meaning of rules -/

mutual

/-- The value keeps the rule. -/
def Rule.Holds : Rule → Value → Prop
  | .kind k, v => k.holds v = true
  | .required key, v => ∀ es, v = .dict es → (Value.field key es).isSome = true
  | .property key rules, v => ∀ w, v.field? key = some w → Schema.Holds rules w
  | .items rules, v => ∀ xs, v = .list xs → ∀ x ∈ xs, Schema.Holds rules x
  | .either first second, v => Schema.Holds first v ∨ Schema.Holds second v
  | .nonEmpty, v => v ≠ .text ""
  | .nonNegative, v => isNegative v = false
  | .pattern q, v => ∀ s, v = .text s → q.accepts s.toList = true
  | .oneOf words, v => ∃ s ∈ words, v = .text s

/-- The value keeps all rules. -/
def Schema.Holds : List Rule → Value → Prop
  | [], _ => True
  | r :: rest, v => r.Holds v ∧ Schema.Holds rest v

end

/-! ## Violations -/

mutual

theorem Rule.violations_eq_nil_iff (p : Place) :
    ∀ (r : Rule) (v : Value), r.violations p v = [] ↔ r.Holds v
  | .kind k, v => by
    rw [Rule.violations, Rule.Holds]
    cases k.holds v <;> simp
  | .required key, v => by
    rw [Rule.Holds]
    cases v with
    | dict es =>
      rw [Rule.violations]
      cases h : (Value.field key es).isSome <;> simp [h]
    | _ => simp [Rule.violations]
  | .property key rules, v => by
    rw [Rule.violations, Rule.Holds]
    cases h : v.field? key with
    | none => simp
    | some w => simpa using Schema.violations_eq_nil_iff _ rules w
  | .items rules, v => by
    rw [Rule.Holds]
    cases v with
    | list xs =>
      rw [Rule.violations, List.flatMap_eq_nil_iff]
      constructor
      · rintro h _ ⟨⟩ x hx
        obtain ⟨i, hi⟩ := List.mem_iff_getElem?.1 hx
        have hmem : (x, i) ∈ xs.zipIdx := List.mem_zipIdx_iff_getElem?.2 hi
        exact (Schema.violations_eq_nil_iff _ rules x).1 (h (x, i) hmem)
      · intro h y hy
        exact (Schema.violations_eq_nil_iff _ rules y.1).2 (h xs rfl y.1 (List.fst_mem_of_mem_zipIdx hy))
    | _ => simp [Rule.violations]
  | .either first second, v => by
    rw [Rule.violations, Rule.Holds, ← Schema.violations_eq_nil_iff p first v,
      ← Schema.violations_eq_nil_iff p second v]
    split <;> simp_all
  | .nonEmpty, v => by
    rw [Rule.Holds]
    cases v with
    | text s =>
      rw [Rule.violations]
      by_cases h : s = "" <;> simp [h]
    | _ => simp [Rule.violations]
  | .nonNegative, v => by
    rw [Rule.violations, Rule.Holds]
    cases isNegative v <;> simp
  | .pattern q, v => by
    rw [Rule.Holds]
    cases v with
    | text s =>
      rw [Rule.violations]
      cases h : q.accepts s.toList <;> simp [h]
    | _ => simp [Rule.violations]
  | .oneOf words, v => by
    rw [Rule.Holds]
    cases v with
    | text s =>
      rw [Rule.violations]
      by_cases h : s ∈ words <;> simp [h]
    | _ => simp [Rule.violations]

theorem Schema.violations_eq_nil_iff (p : Place) :
    ∀ (rules : List Rule) (v : Value), Schema.violations p rules v = [] ↔ Schema.Holds rules v
  | [], v => by simp [Schema.violations, Schema.Holds]
  | r :: rest, v => by
    rw [Schema.violations, List.append_eq_nil_iff, Schema.Holds, Rule.violations_eq_nil_iff p r v,
      Schema.violations_eq_nil_iff p rest v]

end

/-! ## Acceptance -/

namespace Schema

/-- A schema accepts exactly the values that keep it. -/
theorem accepts_iff (s : Schema) (v : Value) : s.accepts v = true ↔ Holds s v := by
  rw [accepts, List.isEmpty_iff, violations_eq_nil_iff]

theorem holds_iff_forall {rules : List Rule} {v : Value} :
    Holds rules v ↔ ∀ r ∈ rules, r.Holds v := by
  induction rules with
  | nil => simp [Holds]
  | cons r rest ih => simp [Holds, ih]

end Schema

/-! ## Kinds and keys -/

theorem Kind.text_holds_iff (v : Value) : Kind.text.holds v = true ↔ ∃ s, v = .text s := by
  cases v <;> simp [holds]

theorem Kind.object_holds_iff (v : Value) :
    Kind.object.holds v = true ↔ ∃ entries, v = .dict entries := by
  cases v <;> simp [holds]

/-- What is under a key of a dictionary, if the key has to be there. -/
theorem Rule.exists_field? {key : String} {v : Value} (hdict : Kind.object.holds v = true)
    (h : (Rule.required key).Holds v) : ∃ x, v.field? key = some x := by
  obtain ⟨entries, rfl⟩ := (Kind.object_holds_iff v).1 hdict
  rw [Holds] at h
  exact Option.isSome_iff_exists.1 (h entries rfl)

theorem Rule.holds_required {key : String} {v x : Value} (h : v.field? key = some x) :
    (Rule.required key).Holds v := by
  rw [Holds]
  rintro entries rfl
  exact Option.isSome_iff_exists.2 ⟨x, h⟩

/-! ## Complaints -/

/-- A rule that does not go on to a part of the value complains about the value itself. -/
theorem Rule.part_eq {r : Rule} {p : Place} {v : Value} {x : Violation}
    (hproperty : ∀ key rules, r ≠ .property key rules) (hitems : ∀ rules, r ≠ .items rules)
    (hx : x ∈ r.violations p v) : x.part = v := by
  unfold Rule.violations at hx
  split at hx
  case h_3 => exact absurd rfl (hproperty _ _)
  case h_4 => exact absurd rfl (hitems _)
  all_goals
    repeat' split at hx
    all_goals simp_all

mutual

/-- Nothing is complained about that could not be written. -/
theorem Rule.isWritable_part {x : Violation} :
    ∀ {r : Rule} {p : Place} {v : Value}, v.isWritable = true → x ∈ r.violations p v →
      x.part.isWritable = true
  | .property key rules, p, v, hv, hx => by
    rw [Rule.violations] at hx
    cases h : v.field? key with
    | none => simp [h] at hx
    | some w =>
      rw [h] at hx
      exact Schema.isWritable_part (Value.isWritable_of_field? h hv) hx
  | .items rules, p, v, hv, hx => by
    cases v with
    | list xs =>
      rw [Rule.violations, List.mem_flatMap] at hx
      obtain ⟨y, hy, hx⟩ := hx
      rw [Value.isWritable, Value.areWritable_iff] at hv
      exact Schema.isWritable_part (hv y.1 (List.fst_mem_of_mem_zipIdx hy)) hx
    | _ => simp [Rule.violations] at hx
  | .kind _, _, _, hv, hx | .required _, _, _, hv, hx | .either _ _, _, _, hv, hx
  | .nonEmpty, _, _, hv, hx | .nonNegative, _, _, hv, hx | .pattern _, _, _, hv, hx
  | .oneOf _, _, _, hv, hx => by
    rw [Rule.part_eq (by simp) (by simp) hx]
    exact hv

theorem Schema.isWritable_part {x : Violation} :
    ∀ {rules : List Rule} {p : Place} {v : Value}, v.isWritable = true →
      x ∈ Schema.violations p rules v → x.part.isWritable = true
  | [], _, _, _, hx => by simp [Schema.violations] at hx
  | r :: rest, p, v, hv, hx => by
    rw [Schema.violations, List.mem_append] at hx
    rcases hx with hx | hx
    · exact Rule.isWritable_part hv hx
    · exact Schema.isWritable_part hv hx

end

/-- The complaint about a value that can be written is never a fault. -/
theorem Schema.complaints_of_isWritable (whole : String) (s : Schema) {v : Value}
    (hv : v.isWritable = true) :
    s.complaints whole v = .ok (if s.accepts v then none else some (s.details whole v)) := by
  have hparts : (violations .top s v).all (·.part.isWritable) = true :=
    List.all_eq_true.2 fun x hx => Schema.isWritable_part hv hx
  rw [complaints, hparts]
  cases s.accepts v <;> rfl

end FieldCheck
