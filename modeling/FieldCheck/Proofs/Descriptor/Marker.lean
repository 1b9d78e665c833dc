/-
FieldCheck.Proofs.Descriptor.Marker — the marker asks for presence and changes nothing else.

The marker comes off the front of a descriptor before anything else is read, so behind it
every text is read as it is without one, malformed ones included (`parse_marker`). What it
adds to a requirement is one condition on the value at the end of the path. Where that
value is absent, the type is not asked any more; it would have had an answer, because the
only fault of a type is a number with too many digits, and every number is present
(`exists_accepts_of_isAbsent`). So the marker turns an answer into its conjunction with
presence, and a fault stays the same fault (`result_isMet_marker`).

* `marker_adds_presence` — both in one, with presence in terms of the values that are
  absent.
-/
import FieldCheck.Proofs.Descriptor.Meaning

namespace FieldCheck

open Value

/-! ## Reading -/

namespace Descriptor

variable {d : String} {r : Requirement}

theorem splitMarker_of_head (h : d.toList.head? ≠ some '*') :
    splitMarker d.toList = (false, d.toList) := by
  unfold splitMarker
  split
  · rename_i rest hd
    exact absurd (by rw [hd]; rfl) h
  · rfl

/-- Behind a marker, a descriptor without one is read as it is alone, and so is its fault. -/
theorem parse_marker (h : d.toList.head? ≠ some '*') :
    parse ("*" ++ d) = (parse d).map fun r => { r with truthy := true } := by
  have hunmarked : (splitMarker d.toList).1 = false := by rw [splitMarker_of_head h]
  rw [parse, String.toList_append]
  exact parseChars_marker d.toList hunmarked

theorem truthy_of_parse (h : d.toList.head? ≠ some '*') (hd : parse d = .ok r) :
    r.truthy = false := by
  rw [parse, parseChars, parseUnmarked, splitMarker_of_head h] at hd
  cases hb : bound (splitConstraint d.toList).length with
  | error f => simp [hb, Except.map] at hd
  | ok b =>
    rw [hb] at hd
    cases hd
    rfl

end Descriptor

/-! ## Requirements -/

/-- No type has trouble with a value that is absent. -/
theorem exists_accepts_of_isAbsent {v : Value} (h : v.IsAbsent) (t : FieldType)
    (bound : Option Int) : ∃ met, t.accepts bound v = .ok met := by
  cases t with
  | integer =>
    rw [FieldType.accepts]
    split
    · cases h with
      | text => cases bound <;> exact ⟨_, rfl⟩
      | _ => rename_i hwhole; cases hwhole
    · exact ⟨false, rfl⟩
  | text => cases h <;> exact ⟨_, rfl⟩
  | _ => exact ⟨_, rfl⟩

/-- The value at the end of the path is there, and it counts as present. -/
def Requirement.findsPresent (r : Requirement) (record : Value) : Bool :=
  (Path.resolve r.path record).any Value.isPresent

theorem Requirement.findsPresent_iff (r : Requirement) (record : Value) :
    r.findsPresent record = true ↔ ∃ v, LeadsTo record r.path v ∧ ¬ v.IsAbsent := by
  simp only [findsPresent, Option.any_eq_true, resolve_eq_some_iff, isPresent_iff]

theorem Requirement.isMet_marker {r : Requirement} (h : r.truthy = false) (record : Value) :
    { r with truthy := true }.isMet record
      = (r.isMet record).map fun met => met && r.findsPresent record := by
  simp only [isMet, findsPresent]
  cases Path.resolve r.path record with
  | none => rfl
  | some v =>
    simp only [isMetBy, h, Option.any_some, Bool.true_and, Bool.false_and]
    cases hpresent : v.isPresent with
    | true => cases r.type.accepts r.maxLength v <;> simp [Except.map]
    | false =>
      have habsent : v.IsAbsent := by
        by_contra hnot
        rw [(isPresent_iff v).2 hnot] at hpresent
        cases hpresent
      obtain ⟨met, hmet⟩ := exists_accepts_of_isAbsent habsent r.type r.maxLength
      simp [hmet, Except.map]

/-! ## Descriptors -/

namespace Descriptor

variable {d : String} {r : Requirement}

theorem result_isMet_marker (h : d.toList.head? ≠ some '*') (hd : parse d = .ok r)
    (record : Value) : (isMet (.text ("*" ++ d)) record).result
      = (isMet (.text d) record).result.map fun met => met && r.findsPresent record := by
  rw [result_isMet_text, result_isMet_text, parse_marker h, hd]
  exact Requirement.isMet_marker (truthy_of_parse h hd) record

/-- With a marker in front, a descriptor stands for the same requirement, except that it
asks for presence. It is met by the records that meet it without the marker and in which
its path leads to a value that is not absent. The two have the same faults. -/
theorem marker_adds_presence (h : d.toList.head? ≠ some '*') (hd : parse d = .ok r) :
    r.truthy = false ∧ parse ("*" ++ d) = .ok { r with truthy := true }
      ∧ ∀ record : Value,
        (∀ f, (isMet (.text ("*" ++ d)) record).result = .error f
          ↔ (isMet (.text d) record).result = .error f)
        ∧ ∀ met met', (isMet (.text d) record).result = .ok met →
          (isMet (.text ("*" ++ d)) record).result = .ok met' →
          (met' = true ↔ met = true ∧ ∃ v, LeadsTo record r.path v ∧ ¬ v.IsAbsent) := by
  refine ⟨truthy_of_parse h hd, by rw [parse_marker h, hd]; rfl, fun record => ⟨fun f => ?_, ?_⟩⟩
  · rw [result_isMet_marker h hd]
    cases (isMet (.text d) record).result <;> simp [Except.map]
  · intro met met' hmet hmet'
    rw [result_isMet_marker h hd, hmet] at hmet'
    obtain rfl : (met && r.findsPresent record) = met' := Except.ok.inj hmet'
    rw [Bool.and_eq_true, Requirement.findsPresent_iff]

/-- A field whose name begins with a parenthesis, behind a constraint with a part too many
and a token that names no type. -/
def uneven : Requirement :=
  ⟨false, .unknown, some 5, ["a", "(b"], "strng", [.extraParts ["9"], .unknownType "strng"]⟩

/-- A record with a value in that field. -/
def filled (v : Value) : Value := .dict [(.text "a", .dict [(.text "(b", v)])]

/-- Zero is met with the marker and without, and the empty text only without. -/
theorem marker_adds_presence_uneven :
    "(strng@5@9)a/(b".toList.head? ≠ some '*' ∧ parse "(strng@5@9)a/(b" = .ok uneven
      ∧ parse "*(strng@5@9)a/(b" = .ok { uneven with truthy := true }
      ∧ (∀ v, (isMet (.text "(strng@5@9)a/(b") (filled v)).result = .ok true)
      ∧ (isMet (.text "*(strng@5@9)a/(b") (filled (.int 0))).result = .ok true
      ∧ (true = true ↔ true = true ∧ ∃ v, LeadsTo (filled (.int 0)) uneven.path v ∧ ¬ v.IsAbsent)
      ∧ (isMet (.text "*(strng@5@9)a/(b") (filled (.text ""))).result = .ok false
      ∧ (false = true ↔ true = true
        ∧ ∃ v, LeadsTo (filled (.text "")) uneven.path v ∧ ¬ v.IsAbsent) := by
  have hparse : parse "(strng@5@9)a/(b" = .ok uneven := rfl
  obtain ⟨-, hmarked, hrecords⟩ := marker_adds_presence (by decide) hparse
  have hmarked : parse "*(strng@5@9)a/(b" = .ok { uneven with truthy := true } := hmarked
  have hmet : ∀ v, (isMet (.text "(strng@5@9)a/(b") (filled v)).result = .ok true := by
    intro v
    rw [result_isMet_text, hparse]
    rfl
  have hzero : (isMet (.text "*(strng@5@9)a/(b") (filled (.int 0))).result = .ok true := by
    rw [result_isMet_text, hmarked]
    rfl
  have hempty : (isMet (.text "*(strng@5@9)a/(b") (filled (.text ""))).result = .ok false := by
    rw [result_isMet_text, hmarked]
    rfl
  exact ⟨by decide, hparse, hmarked, hmet, hzero, (hrecords _).2 _ _ (hmet _) hzero, hempty,
    (hrecords _).2 _ _ (hmet _) hempty⟩

end Descriptor

end FieldCheck
