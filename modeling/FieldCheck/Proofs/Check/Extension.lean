/-
FieldCheck.Proofs.Check.Extension — adding data never creates a failure.

`AddsKey` is the step: one more entry, under a key that is new, in a dictionary
that is reached through dictionaries only. `Extends` is any number of steps.
Nothing is looked up to say so. A lookup would not do, because there are keys
that no lookup finds, such as the float that is not a number.

A path leads in the larger record to what it led to before, or to a larger
dictionary (`Extends.resolve`). And a dictionary that grows stays acceptable:
presence asks that it is not empty, and no type but those that accept everything
accepts dictionaries at all. That makes every requirement monotone
(`isMet_of_extends`), and with it every group and every list of items: a check
of the larger record lists some of the labels that it listed before, in the same
order (`check_of_extends`).

The other direction is open on purpose. Adding data can make a failing item pass,
so the two lists need not be equal.
-/
import Mathlib.Data.List.Sublists
import Mathlib.Logic.Relation
import FieldCheck.Proofs.Check.Aggregation
import FieldCheck.Proofs.Descriptor.Meaning

namespace FieldCheck

namespace Value

/-! ## Adding keys -/

/-- The second value is the first with one more entry in one dictionary. -/
inductive AddsKey : Value → Value → Prop
  | here {before after : List (Value × Value)} {key v : Value}
      (hnew : ∀ e ∈ before ++ after, sameKey key e.1 = false) :
      AddsKey (.dict (before ++ after)) (.dict (before ++ (key, v) :: after))
  | under {before after : List (Value × Value)} {key v w : Value} (h : AddsKey v w) :
      AddsKey (.dict (before ++ (key, v) :: after)) (.dict (before ++ (key, w) :: after))

/-- The second value is the first with any number of entries added. -/
def Extends : Value → Value → Prop := Relation.ReflTransGen AddsKey

theorem Extends.refl (v : Value) : v.Extends v := Relation.ReflTransGen.refl

theorem Extends.trans {u v w : Value} (h : u.Extends v) (h' : v.Extends w) : u.Extends w :=
  Relation.ReflTransGen.trans h h'

theorem AddsKey.extends {v w : Value} (h : AddsKey v w) : v.Extends w :=
  Relation.ReflTransGen.single h

/-! ## Lookups -/

theorem field_append (name : String) (before after : List (Value × Value)) :
    field name (before ++ after) = (field name before).or (field name after) := by
  simp only [field, lookup, List.find?_append]
  cases before.find? fun e => sameKey (.text name) e.1 <;> rfl

theorem field_cons (name : String) (key v : Value) (rest : List (Value × Value)) :
    field name ((key, v) :: rest)
      = if sameKey (.text name) key then some v else field name rest :=
  lookup_cons _ key v rest

theorem mem_of_field_eq_some {name : String} {v : Value} {es : List (Value × Value)}
    (h : field name es = some v) : (.text name, v) ∈ es := by
  rw [field, lookup, Option.map_eq_some_iff] at h
  obtain ⟨⟨key, u⟩, hfind, rfl⟩ := h
  have hkey := List.find?_some hfind
  obtain rfl := (sameKey_text name key).1 hkey
  exact List.mem_of_find?_eq_some hfind

/-- A new key hides none of the entries. -/
theorem field_insert_of_new {name : String} {u v key : Value} {before after : List (Value × Value)}
    (hnew : ∀ e ∈ before ++ after, sameKey key e.1 = false)
    (h : field name (before ++ after) = some u) :
    field name (before ++ (key, v) :: after) = some u := by
  have hne : sameKey (.text name) key = false := by
    refine eq_false_of_ne_true fun hkey => ?_
    have hother := hnew _ (mem_of_field_eq_some h)
    rw [(sameKey_text name key).1 hkey, (sameKey_text name (.text name)).2 rfl] at hother
    cases hother
  rw [field_append] at h ⊢
  simpa [field_cons, hne] using h

/-- After one step a field has what it had, or the same with one more entry. -/
theorem AddsKey.field? {v w u : Value} {name : String} (h : AddsKey v w)
    (hu : v.field? name = some u) : ∃ u', w.field? name = some u' ∧ u.Extends u' := by
  cases h with
  | here hnew => exact ⟨u, field_insert_of_new hnew hu, .refl u⟩
  | @under before after key v w h =>
    rw [Value.field?, field_append, field_cons] at hu ⊢
    cases hbefore : field name before with
    | some first =>
      rw [hbefore] at hu
      exact ⟨u, hu, .refl u⟩
    | none =>
      rw [hbefore, Option.none_or] at hu
      rw [Option.none_or]
      split at hu
      · cases hu
        exact ⟨w, if_pos ‹_›, h.extends⟩
      · exact ⟨u, (if_neg ‹_›).trans hu, .refl u⟩

theorem Extends.field? {v w u : Value} {name : String} (h : v.Extends w)
    (hu : v.field? name = some u) : ∃ u', w.field? name = some u' ∧ u.Extends u' := by
  induction h with
  | refl => exact ⟨u, hu, .refl u⟩
  | tail _ hstep ih =>
    obtain ⟨u', hu', hext⟩ := ih
    obtain ⟨u'', hu'', hmore⟩ := hstep.field? hu'
    exact ⟨u'', hu'', hext.trans hmore⟩

/-- What a path led to is still there, and has at most grown. -/
theorem Extends.resolve {path : List String} {v w u : Value} (h : v.Extends w)
    (hu : Path.resolve path v = some u) : ∃ u', Path.resolve path w = some u' ∧ u.Extends u' := by
  induction path generalizing v w with
  | nil =>
    rw [Path.resolve_nil, Option.some.injEq] at hu
    subst hu
    exact ⟨w, Path.resolve_nil w, h⟩
  | cons key rest ih =>
    rw [Path.resolve_cons, Option.bind_eq_some_iff] at hu
    obtain ⟨v', hfield, hrest⟩ := hu
    obtain ⟨w', hfield', hext⟩ := h.field? hfield
    obtain ⟨u', hu', hmore⟩ := ih hext hrest
    refine ⟨u', ?_, hmore⟩
    rw [Path.resolve_cons, hfield']
    exact hu'

/-! ## What grows -/

theorem AddsKey.dicts {v w : Value} (h : AddsKey v w) :
    ∃ es fs, v = .dict es ∧ w = .dict fs ∧ fs ≠ [] := by
  cases h <;> exact ⟨_, _, rfl, rfl, by simp⟩

/-- Only dictionaries grow, and what has grown is not empty. -/
theorem Extends.eq_or_dicts {v w : Value} (h : v.Extends w) :
    w = v ∨ ∃ es fs, v = .dict es ∧ w = .dict fs ∧ fs ≠ [] := by
  induction h with
  | refl => exact .inl rfl
  | tail _ hstep ih =>
    obtain ⟨es, fs, rfl, rfl, hfs⟩ := hstep.dicts
    rcases ih with rfl | ⟨gs, gs', rfl, -, -⟩
    · exact .inr ⟨es, fs, rfl, rfl, hfs⟩
    · exact .inr ⟨gs, fs, rfl, rfl, hfs⟩

theorem isPresent_dict {es : List (Value × Value)} (h : es ≠ []) : (dict es).isPresent = true := by
  simp [isPresent, truthy, h]

theorem Extends.isPresent {v w : Value} (h : v.Extends w) (hv : v.isPresent = true) :
    w.isPresent = true := by
  rcases h.eq_or_dicts with rfl | ⟨es, fs, rfl, rfl, hfs⟩
  · exact hv
  · exact isPresent_dict hfs

/-- No type asks for the entries of a dictionary. -/
theorem accepts_dict (t : FieldType) (bound : Option Int) (es fs : List (Value × Value)) :
    t.accepts bound (.dict fs) = t.accepts bound (.dict es) := by
  cases t <;> rfl

theorem Extends.accepts {v w : Value} (h : v.Extends w) (t : FieldType) (bound : Option Int) :
    t.accepts bound w = t.accepts bound v := by
  rcases h.eq_or_dicts with rfl | ⟨es, fs, rfl, rfl, -⟩
  · rfl
  · exact accepts_dict t bound es fs

end Value

/-! ## Requirements and descriptors -/

open Value

variable {record larger : Value}

/-- A requirement that is met by a value is met by what the value grows into. -/
theorem Requirement.isMetBy_of_extends (r : Requirement) {v w : Value} (h : v.Extends w)
    (hv : r.isMetBy (some v) = .ok true) : r.isMetBy (some w) = .ok true := by
  rw [isMetBy] at hv ⊢
  split at hv
  · cases hv
  · rename_i hthere
    have hthere' : ¬ (r.truthy && !w.isPresent) = true := by
      intro hmissing
      simp only [Bool.and_eq_true, Bool.not_eq_true'] at hmissing hthere
      have hpresent : v.isPresent = true := by simpa [hmissing.1] using hthere
      simp [h.isPresent hpresent] at hmissing
    rw [if_neg hthere', h.accepts]
    exact hv

theorem Requirement.isMet_of_extends (r : Requirement) (h : record.Extends larger)
    (hmet : r.isMet record = .ok true) : r.isMet larger = .ok true := by
  rw [isMet] at hmet ⊢
  cases hresolve : Path.resolve r.path record with
  | none =>
    rw [hresolve] at hmet
    cases hmet
  | some v =>
    obtain ⟨w, hw, hext⟩ := h.resolve hresolve
    rw [hresolve] at hmet
    rw [hw]
    exact r.isMetBy_of_extends hext hmet

/-- A descriptor that a record passes is passed by every record that extends it. -/
theorem Passes.of_extends {d : String} (h : record.Extends larger) (hd : Passes record d) :
    Passes larger d := by
  rw [Passes, Descriptor.result_isMet_text] at hd ⊢
  cases hparse : Descriptor.parse d with
  | error f =>
    rw [hparse] at hd
    cases hd
  | ok r =>
    rw [hparse] at hd
    exact r.isMet_of_extends h hd

/-- A descriptor that stands for a requirement has an answer on every record
whose numbers can be written. -/
theorem Descriptor.exists_isMet {d : String} {r : Requirement} (hd : Descriptor.parse d = .ok r)
    (hrecord : record.isWritable = true) :
    ∃ met, (Descriptor.isMet (.text d) record).result = .ok met := by
  have hcanonical := isCanonical_of_parse hd
  obtain ⟨bound, hbound, -⟩ := hcanonical.exists_bound
  obtain ⟨met, hmet, -⟩ := Requirement.isMet_iff hcanonical.type_eq hbound hrecord
  refine ⟨met, ?_⟩
  rw [result_isMet_text, hd]
  exact hmet

/-! ## Items and checks -/

/-- Every descriptor of the item stands for a requirement. -/
def TextItem.IsReadable (i : TextItem) : Prop :=
  ∀ d ∈ i.members, ∃ r, Descriptor.parse d = .ok r

theorem TextItem.IsReadable.evaluable {i : TextItem} (h : i.IsReadable)
    (hrecord : record.isWritable = true) : i.Evaluable record := by
  intro d hd f hf
  obtain ⟨r, hr⟩ := h d hd
  obtain ⟨met, hmet⟩ := Descriptor.exists_isMet hr hrecord
  rw [hmet] at hf
  cases hf

theorem TextItem.Fails.of_extends {i : TextItem} (h : record.Extends larger)
    (hi : i.Fails larger) : i.Fails record := by
  intro d hd hpass
  exact hi d hd (hpass.of_extends h)

/-- The items that the larger record fails are some of those that the record fails. -/
theorem filter_fails_sublist (items : List TextItem) (h : record.Extends larger) :
    (items.filter (·.Fails larger)).Sublist (items.filter (·.Fails record)) := by
  refine List.monotone_filter_right items fun i hi => ?_
  rw [decide_eq_true_iff] at hi ⊢
  exact hi.of_extends h

/-- Adding data to a record takes nothing away that a descriptor asked for, and
makes no check list an item that it did not list. -/
theorem check_of_extends (h : record.Extends larger) (hrecord : record.isWritable = true)
    (hlarger : larger.isWritable = true) :
    (∀ (d : String) (r : Requirement), Descriptor.parse d = .ok r →
      ∃ met met', (Descriptor.isMet (.text d) record).result = .ok met
        ∧ (Descriptor.isMet (.text d) larger).result = .ok met' ∧ (met = true → met' = true))
    ∧ ∀ {descriptors : Value} {items : List TextItem}, Lists descriptors items →
      (∀ i ∈ items, i.IsReadable) →
      ∃ o o', (check descriptors record).result = .ok o
        ∧ (check descriptors larger).result = .ok o' ∧ o'.labels.Sublist o.labels := by
  constructor
  · intro d r hd
    obtain ⟨met, hmet⟩ := Descriptor.exists_isMet hd hrecord
    obtain ⟨met', hmet'⟩ := Descriptor.exists_isMet hd hlarger
    refine ⟨met, met', hmet, hmet', ?_⟩
    rintro rfl
    have hpass : Passes larger d := Passes.of_extends h hmet
    rw [Passes, hmet', Except.ok.injEq] at hpass
    exact hpass
  · intro descriptors items hitems hread
    have hbefore := result_check hitems fun i hi => (hread i hi).evaluable hrecord
    have hafter := result_check hitems fun i hi => (hread i hi).evaluable hlarger
    exact ⟨_, _, hbefore, hafter, (filter_fails_sublist items h).map _⟩

/-- A contact that has no address yet, and the same contact with one. -/
def bareContact : Value := .dict [(.text "contact", .dict [])]

def fullContact : Value :=
  .dict [(.text "contact", .dict [(.text "mail", .text "a@b"), (.float .nan, .bool true)])]

theorem bareContact_extends : bareContact.Extends fullContact := by
  have hmail : AddsKey bareContact
      (.dict [(.text "contact", .dict [(.text "mail", .text "a@b")])]) :=
    @AddsKey.under [] [] _ _ _ (@AddsKey.here [] [] _ _ (by simp))
  have hnan : AddsKey (.dict [(.text "contact", .dict [(.text "mail", .text "a@b")])])
      fullContact :=
    @AddsKey.under [] [] _ _ _
      (@AddsKey.here [(.text "mail", .text "a@b")] [] _ _ (by simp [sameKey, sameAtom]))
  exact hmail.extends.trans hnan.extends

theorem check_of_extends_contact :
    bareContact.Extends fullContact ∧ bareContact.isWritable = true
      ∧ fullContact.isWritable = true
      ∧ (∃ met met', (Descriptor.isMet (.text "*contact") bareContact).result = .ok met
        ∧ (Descriptor.isMet (.text "*contact") fullContact).result = .ok met'
        ∧ (met = true → met' = true))
      ∧ ∃ o o', (check (.list [.text "*contact", .text "phone"]) bareContact).result = .ok o
        ∧ (check (.list [.text "*contact", .text "phone"]) fullContact).result = .ok o'
        ∧ o'.labels.Sublist o.labels := by
  have hcontact : Descriptor.parse "*contact" = .ok ⟨true, .any, none, ["contact"], "", []⟩ := rfl
  have hphone : Descriptor.parse "phone" = .ok ⟨false, .any, none, ["phone"], "", []⟩ := rfl
  have hitems : Lists (.list [.text "*contact", .text "phone"])
      [.single "*contact", .single "phone"] := rfl
  have hread : ∀ i ∈ [TextItem.single "*contact", .single "phone"], i.IsReadable := by
    simp [TextItem.IsReadable, TextItem.members, hcontact, hphone]
  obtain ⟨hdescriptors, hchecks⟩ := check_of_extends bareContact_extends rfl rfl
  exact ⟨bareContact_extends, rfl, rfl, hdescriptors "*contact" _ hcontact, hchecks hitems hread⟩

end FieldCheck
