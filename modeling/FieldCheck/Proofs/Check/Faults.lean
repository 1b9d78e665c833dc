/-
FieldCheck.Proofs.Check.Faults — how a check can fail.

A check fails for one of two reasons. A number has too many digits, in a
descriptor or in the record. Or a value is of a kind that the check does not
take, and that can only be the list of descriptors, an item of it, or a member of
a group. Discovery fails for the same reasons, without the record.

`Item.Admits P` says of an item that the faults of the second kind that can
come from it have a property `P`. So there is one lemma for each step, and its two
extremes are what is used: every item admits all faults about kinds, and an item
made of texts admits no fault at all.
-/
import FieldCheck.Discovery
import FieldCheck.Proofs.Check.Aggregation

namespace FieldCheck

/-! ## Kinds of faults -/

/-- A number has too many digits to be read or written. -/
inductive Fault.IsAboutDigits : Fault → Prop
  | write : IsAboutDigits .tooLongToWrite
  | read (digits : Nat) : IsAboutDigits (.tooLongToRead digits)

/-- A value is of a kind that an operation does not take. -/
def Fault.isAboutKind : Fault → Bool
  | descriptorNotText _ => true
  | notIterable _ => true
  | labelNotText .. => true
  | unhashable _ => true
  | notPrefixable _ => true
  | entryNotSequence _ => true
  | notLocation _ => true
  | recordsFailed _ cause => cause.isAboutKind
  | _ => false

/-- The fault says what a record lacks. -/
def Fault.isVerdict : Fault → Bool
  | fieldsRequired .. => true
  | _ => false

/-- A result that is changed is a fault only if it was one. -/
theorem eq_error_of_map {α β : Type} {x : Except Fault α} {g : α → β} {f : Fault}
    (h : x.map g = .error f) : x = .error f := by
  cases x with
  | ok a => cases h
  | error e =>
    cases h
    rfl

namespace Traced

variable {α β : Type} {P : Fault → Prop}

/-- Every fault of the computation has a property. -/
def FailsOnly (P : Fault → Prop) (x : Traced α) : Prop := ∀ f, x.result = .error f → P f

theorem FailsOnly.bind {x : Traced α} {f : α → Traced β} (hx : FailsOnly P x)
    (hf : ∀ a, x.result = .ok a → FailsOnly P (f a)) : FailsOnly P (x >>= f) := by
  intro e he
  cases h : x.result with
  | error e' =>
    rw [result_bind_error f h] at he
    cases he
    exact hx e h
  | ok a =>
    rw [result_bind_ok f h] at he
    exact hf a h e he

theorem failsOnly_pure (a : α) : FailsOnly P (pure a : Traced α) := nofun

theorem failsOnly_ofExcept {x : Except Fault α} (h : ∀ f, x = .error f → P f) :
    FailsOnly P (ofExcept x) := h

end Traced

/-! ## Descriptors -/

open Traced

variable {P : Fault → Prop}

theorem Descriptor.isAboutDigits_of_parse {d : String} {f : Fault}
    (h : parse d = .error f) : f.IsAboutDigits := by
  rw [parse, parseChars, parseUnmarked] at h
  have hbound := eq_error_of_map h
  cases hlength : (splitConstraint (splitMarker d.toList).2).length with
  | none =>
    rw [hlength] at hbound
    cases hbound
  | some token =>
    rw [hlength] at hbound
    obtain ⟨-, -, rfl⟩ := (readLength_eq_error_iff token f).1 (eq_error_of_map hbound)
    exact .read _

theorem Value.isAboutDigits_of_decimalLength {n : Int} {f : Fault}
    (h : decimalLength n = .error f) : f.IsAboutDigits := by
  rw [decimalLength] at h
  split at h
  · cases h
  · cases h
    exact .write

theorem Value.isAboutDigits_of_integerLength {v : Value} {f : Fault}
    (h : v.integerLength = .error f) : f.IsAboutDigits := by
  cases v with
  | int n => exact isAboutDigits_of_decimalLength h
  | float x => exact isAboutDigits_of_decimalLength h
  | _ => cases h

theorem FieldType.isAboutDigits_of_accepts {t : FieldType} {bound : Option Int} {v : Value}
    {f : Fault} (h : t.accepts bound v = .error f) : f.IsAboutDigits := by
  cases t with
  | integer =>
    rw [accepts] at h
    split at h
    · cases bound with
      | none => cases h
      | some n => exact Value.isAboutDigits_of_integerLength (eq_error_of_map h)
    · cases h
  | text => cases v <;> cases h
  | _ => cases h

theorem Requirement.isAboutDigits_of_isMet {r : Requirement} {record : Value} {f : Fault}
    (h : r.isMet record = .error f) : f.IsAboutDigits := by
  rw [isMet] at h
  cases hv : Path.resolve r.path record with
  | none =>
    rw [hv] at h
    cases h
  | some v =>
    rw [hv, isMetBy] at h
    split at h
    · cases h
    · exact FieldType.isAboutDigits_of_accepts h

/-- The faults about its kind that can come from an item have the property. -/
structure Item.Admits (P : Fault → Prop) (i : Item) : Prop where
  members : ∀ v ∈ i.members, (∃ s, v = .text s) ∨ P (.descriptorNotText v.kind)
  label : ∀ f, i.label = .error f → P f

theorem TextItem.admits (P : Fault → Prop) (i : TextItem) : (Item.ofValue i.toValue).Admits P where
  members := by
    rw [members_ofValue]
    exact List.forall_mem_map.2 fun s _ => .inl ⟨s, rfl⟩
  label f h := by
    rw [label_ofValue] at h
    cases h

theorem isAboutKind_of_elements {v : Value} {f : Fault} (h : v.elements = .error f) :
    f.isAboutKind = true := by
  cases v <;> cases h <;> rfl

/-- A label is a fault only about the kind of an item. -/
theorem isAboutKind_of_textsFrom {vs : List Value} {index : Nat} {f : Fault}
    (h : Value.textsFrom index vs = .error f) : f.isAboutKind = true := by
  induction vs generalizing index with
  | nil => cases h
  | cons v rest ih =>
    cases v with
    | text s => exact ih (eq_error_of_map h)
    | _ =>
      cases h
      rfl

theorem Item.admits_of_kinds (hkinds : ∀ f, f.isAboutKind = true → P f) (i : Item) :
    i.Admits P where
  members _ _ := .inr (hkinds _ rfl)
  label f h := by
    refine hkinds f ?_
    cases i with
    | single v =>
      cases v with
      | text s => cases h
      | _ =>
        cases h
        rfl
    | group members => exact isAboutKind_of_textsFrom (eq_error_of_map h)

/-! ## Checks -/

section Checks

variable (hdigits : ∀ f, f.IsAboutDigits → P f) {items : List Item} (record : Value)

include hdigits

theorem failsOnly_parseValue {v : Value} (hv : (∃ s, v = .text s) ∨ P (.descriptorNotText v.kind)) :
    FailsOnly P (Descriptor.parseValue v) := by
  intro f h
  cases v with
  | text s =>
    rw [Descriptor.parseValue, Descriptor.result_parseLogged] at h
    exact hdigits f (Descriptor.isAboutDigits_of_parse h)
  | _ =>
    cases h
    exact hv.resolve_left (by simp)

theorem failsOnly_isMet {v : Value} (hv : (∃ s, v = .text s) ∨ P (.descriptorNotText v.kind)) :
    FailsOnly P (Descriptor.isMet v record) :=
  (failsOnly_parseValue hdigits hv).bind fun _ _ =>
    failsOnly_ofExcept fun f hf => hdigits f (Requirement.isAboutDigits_of_isMet hf)

theorem failsOnly_anyMet {vs : List Value}
    (h : ∀ v ∈ vs, (∃ s, v = .text s) ∨ P (.descriptorNotText v.kind)) :
    FailsOnly P (anyMet vs record) := by
  induction vs with
  | nil => exact failsOnly_pure false
  | cons v rest ih =>
    refine (failsOnly_isMet hdigits record (h v (by simp))).bind fun met _ => ?_
    cases met with
    | true => exact failsOnly_pure true
    | false => exact ih fun u hu => h u (List.mem_cons_of_mem _ hu)

theorem failsOnly_failures (h : ∀ i ∈ items, i.Admits P) : FailsOnly P (failures items record) := by
  induction items with
  | nil => exact failsOnly_pure []
  | cons i rest ih =>
    have hi := h i (by simp)
    have hfirst : FailsOnly P (i.failure record) := by
      refine (failsOnly_anyMet hdigits record hi.members).bind fun met _ => ?_
      cases met with
      | true => exact failsOnly_pure none
      | false => exact (failsOnly_ofExcept hi.label).bind fun label _ => failsOnly_pure _
    exact hfirst.bind fun _ _ =>
      (ih fun j hj => h j (List.mem_cons_of_mem _ hj)).bind fun _ _ => failsOnly_pure _

theorem failsOnly_check {descriptors : Value}
    (hlist : ∀ f, Item.listOf descriptors = .error f → P f)
    (hitems : ∀ items, Item.listOf descriptors = .ok items → ∀ i ∈ items, i.Admits P) :
    FailsOnly P (check descriptors record) :=
  (failsOnly_ofExcept hlist).bind fun items h =>
    (failsOnly_failures hdigits record (hitems items h)).bind fun _ _ =>
      FailsOnly.bind nofun fun _ _ => failsOnly_pure _

end Checks

/-- A check of items made of texts fails for digits alone. -/
theorem failsOnly_check_texts {descriptors : Value} {items : List TextItem}
    (h : Lists descriptors items) (record : Value) :
    FailsOnly Fault.IsAboutDigits (check descriptors record) := by
  refine failsOnly_check (fun _ hf => hf) record ?_ ?_
  · exact fun f hf => absurd (h.listOf_eq.symm.trans hf) (by simp)
  · intro is his
    rw [h.listOf_eq] at his
    cases his
    simpa using fun i _ => i.admits _

/-- No check whatsoever fails with a verdict. -/
theorem failsOnly_check_any (descriptors record : Value) :
    FailsOnly (fun f => f.isVerdict = false) (check descriptors record) := by
  have hkinds : ∀ f : Fault, f.isAboutKind = true → f.isVerdict = false := by
    intro f hf
    cases f <;> first | rfl | cases hf
  refine failsOnly_check ?_ record ?_ ?_
  · rintro f ⟨⟩ <;> rfl
  · exact fun f hf => hkinds f (isAboutKind_of_elements (eq_error_of_map hf))
  · exact fun items _ i _ => i.admits_of_kinds hkinds

/-! ## Discovery -/

section Discovery

variable (hdigits : ∀ f, f.IsAboutDigits → P f) {items : List Item}

include hdigits

theorem failsOnly_describe {v : Value} (hv : (∃ s, v = .text s) ∨ P (.descriptorNotText v.kind)) :
    FailsOnly P (describe v) := by
  cases v with
  | text s =>
    refine FailsOnly.bind (fun f h => ?_) fun _ _ => failsOnly_pure _
    rw [Descriptor.result_parseLogged] at h
    exact hdigits f (Descriptor.isAboutDigits_of_parse h)
  | _ =>
    rintro f ⟨⟩
    exact hv.resolve_left (by simp)

theorem failsOnly_describeAll {vs : List Value}
    (h : ∀ v ∈ vs, (∃ s, v = .text s) ∨ P (.descriptorNotText v.kind)) :
    FailsOnly P (describeAll vs) := by
  induction vs with
  | nil => exact failsOnly_pure []
  | cons v rest ih =>
    exact (failsOnly_describe hdigits (h v (by simp))).bind fun _ _ =>
      (ih fun u hu => h u (List.mem_cons_of_mem _ hu)).bind fun _ _ => failsOnly_pure _

theorem failsOnly_discoverItem {i : Item} (h : i.Admits P) : FailsOnly P (discoverItem i) := by
  cases i with
  | single v =>
    exact (failsOnly_describe hdigits (h.members v (by simp [Item.members]))).bind fun _ _ =>
      failsOnly_pure _
  | group members =>
    exact (failsOnly_ofExcept h.label).bind fun _ _ =>
      (failsOnly_describeAll hdigits h.members).bind fun _ _ => failsOnly_pure _

theorem failsOnly_discoverItems (h : ∀ i ∈ items, i.Admits P) :
    FailsOnly P (discoverItems items) := by
  induction items with
  | nil => exact failsOnly_pure []
  | cons i rest ih =>
    exact (failsOnly_discoverItem hdigits (h i (by simp))).bind fun _ _ =>
      (ih fun j hj => h j (List.mem_cons_of_mem _ hj)).bind fun _ _ => failsOnly_pure _

theorem failsOnly_discover {descriptors : Value}
    (hlist : ∀ f, Item.listOf descriptors = .error f → P f)
    (hitems : ∀ items, Item.listOf descriptors = .ok items → ∀ i ∈ items, i.Admits P) :
    FailsOnly P (discover descriptors) :=
  (failsOnly_ofExcept hlist).bind fun items h => failsOnly_discoverItems hdigits (hitems items h)

end Discovery

/-- Discovery on items made of texts fails for digits alone. -/
theorem failsOnly_discover_texts {descriptors : Value} {items : List TextItem}
    (h : Lists descriptors items) : FailsOnly Fault.IsAboutDigits (discover descriptors) := by
  refine failsOnly_discover (fun _ hf => hf) ?_ ?_
  · exact fun f hf => absurd (h.listOf_eq.symm.trans hf) (by simp)
  · intro is his
    rw [h.listOf_eq] at his
    cases his
    simpa using fun i _ => i.admits _

end FieldCheck
