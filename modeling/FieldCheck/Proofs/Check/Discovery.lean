/-
FieldCheck.Proofs.Check.Discovery — discovery says what a check will do.

Discovery and checks read the descriptors of a list each on their own, and
each make the labels of groups. Here the findings are taken as they are
written, and everything else is forgotten: `Finding.ofJson?` reads a finding
back from the members of an object, with the requirements under `spec`. From
these alone it can be told which labels a check lists
(`check_eq_failing_findings`).

Of a requirement all is read back but the notes, which are written as prose. No
record is compared with a note (`Descriptor.isMet_notes`).

What ties a finding to an item is `Finding.IsOn`. Discovery establishes it
item by item, reading back keeps it, and it carries both the labels and the
answers over to the check of the items.
-/
import FieldCheck.Discovery
import FieldCheck.Proofs.Check.Extension

namespace FieldCheck

/-! ## Parsed findings -/

/-- What is said of a descriptor is what it stands for. -/
def Described.IsParsed (d : Described) : Prop := Descriptor.parse d.descriptor = .ok d.requirement

/-- The descriptors that a finding is about. -/
def Finding.described : Finding → List Described
  | .single d => [d]
  | .group _ members => members

theorem isParsed_of_describe {v : Value} {d : Described} (h : (describe v).result = .ok d) :
    d.IsParsed := by
  cases v with
  | text s =>
    obtain ⟨r, hr, hd⟩ := Traced.of_result_bind h
    cases hd
    rw [Described.IsParsed]
    simpa using hr
  | _ => cases h

theorem isParsed_of_describeAll {vs : List Value} {ds : List Described}
    (h : (describeAll vs).result = .ok ds) : ∀ d ∈ ds, d.IsParsed := by
  induction vs generalizing ds with
  | nil =>
    cases h
    simp
  | cons v vs ih =>
    obtain ⟨first, hfirst, h⟩ := Traced.of_result_bind h
    obtain ⟨others, hothers, h⟩ := Traced.of_result_bind h
    cases h
    exact List.forall_mem_cons.2 ⟨isParsed_of_describe hfirst, ih hothers⟩

theorem isParsed_of_discoverItem {item : Item} {f : Finding}
    (h : (discoverItem item).result = .ok f) : ∀ d ∈ f.described, d.IsParsed := by
  cases item with
  | single v =>
    obtain ⟨d, hd, h⟩ := Traced.of_result_bind h
    cases h
    exact List.forall_mem_singleton.2 (isParsed_of_describe hd)
  | group members =>
    obtain ⟨label, -, h⟩ := Traced.of_result_bind h
    obtain ⟨ds, hds, h⟩ := Traced.of_result_bind h
    cases h
    exact isParsed_of_describeAll hds

theorem isParsed_of_discoverItems {items : List Item} {fs : List Finding}
    (h : (discoverItems items).result = .ok fs) : ∀ f ∈ fs, ∀ d ∈ f.described, d.IsParsed := by
  induction items generalizing fs with
  | nil =>
    cases h
    simp
  | cons item rest ih =>
    obtain ⟨first, hfirst, h⟩ := Traced.of_result_bind h
    obtain ⟨others, hothers, h⟩ := Traced.of_result_bind h
    cases h
    exact List.forall_mem_cons.2 ⟨isParsed_of_discoverItem hfirst, ih hothers⟩

theorem isParsed_of_discover {descriptors : Value} {fs : List Finding}
    (h : (discover descriptors).result = .ok fs) : ∀ f ∈ fs, ∀ d ∈ f.described, d.IsParsed := by
  obtain ⟨items, -, h⟩ := Traced.of_result_bind h
  exact isParsed_of_discoverItems h

/-! ## Reading findings back -/

namespace Json

/-- The text that a value is. -/
def text? : Json → Option String
  | text s => some s
  | _ => none

/-- The truth value that a value is. -/
def bool? : Json → Option Bool
  | bool b => some b
  | _ => none

/-- The items of an array. -/
def items? : Json → Option (List Json)
  | array items => some items
  | _ => none

end Json

namespace Requirement

/-- The bound that is written as a JSON value. -/
def lengthOf? : Json → Option (Option Int)
  | .null => some none
  | .int n => some (some n)
  | _ => none

/-- The requirement that was written, without its notes. -/
def ofJson? (spec : Json) : Option Requirement := do
  let truthy ← (← spec.member? "require_truthy").bool?
  let type ← FieldType.ofName? (← (← spec.member? "type").text?)
  let token ← (← spec.member? "type_token").text?
  let maxLength ← lengthOf? (← spec.member? "max_length")
  let path ← (← (← spec.member? "path").items?).mapM Json.text?
  some ⟨truthy, type, maxLength, path, token, []⟩

/-- The requirement without its notes. -/
def plain (r : Requirement) : Requirement := { r with notes := [] }

/-- The record meets the requirement, as a statement. -/
def IsMet (r : Requirement) (record : Value) : Prop := r.isMet record = .ok true

instance (r : Requirement) (record : Value) : Decidable (r.IsMet record) :=
  match h : r.isMet record with
  | .ok true => isTrue h
  | .ok false => isFalse (by simp [IsMet, h])
  | .error _ => isFalse (by simp [IsMet, h])

end Requirement

/-- The descriptor that was written with its requirement. -/
def Described.ofJson? (j : Json) : Option Described := do
  let descriptor ← (← j.member? "descriptor").text?
  let requirement ← Requirement.ofJson? (← j.member? "spec")
  some ⟨descriptor, requirement⟩

/-- The description with a requirement that has no notes. -/
def Described.plain (d : Described) : Described := ⟨d.descriptor, d.requirement.plain⟩

namespace Finding

/-- The finding that was written. One that says what its group is called is on a group. -/
def ofJson? (j : Json) : Option Finding :=
  match j.member? "group" with
  | some label => do
    let members ← (← (← j.member? "members").items?).mapM Described.ofJson?
    some (.group (← label.text?) members)
  | none => (Described.ofJson? j).map .single

/-- The finding with requirements that have no notes. -/
def plain : Finding → Finding
  | single d => single d.plain
  | group label members => group label (members.map Described.plain)

end Finding

/-- The findings that were written, in order. -/
def findingsOf? (j : Json) : Option (List Finding) := do
  (← j.items?).mapM Finding.ofJson?

/-! ## What was written is read back -/

theorem mapM_map_eq_some {α β γ : Type} {write : α → β} {read : β → Option γ} {kept : α → γ}
    (h : ∀ x, read (write x) = some (kept x)) (xs : List α) :
    (xs.map write).mapM read = some (xs.map kept) := by
  induction xs with
  | nil => rfl
  | cons x xs ih => simp [h, ih]

namespace Requirement

theorem lengthOf?_lengthJson (bound : Option Int) : lengthOf? (lengthJson bound) = some bound := by
  cases bound <;> rfl

theorem ofJson?_toJson (r : Requirement) : ofJson? r.toJson = some r.plain := by
  have hpath : (r.path.map Json.text).mapM Json.text? = some r.path := by
    have htext : ∀ s, Json.text? (.text s) = some (id s) := fun _ => rfl
    rw [mapM_map_eq_some htext, List.map_id]
  simp [ofJson?, toJson, Json.member?, Json.member, Json.bool?, Json.text?, Json.items?,
    Json.texts, lengthOf?_lengthJson, hpath, plain]

end Requirement

theorem Described.ofJson?_toJson (d : Described) : ofJson? d.toJson = some d.plain := by
  simp [ofJson?, toJson, Json.member?, Json.member, Json.text?, Requirement.ofJson?_toJson, plain]

theorem Finding.ofJson?_toJson (f : Finding) : ofJson? f.toJson = some f.plain := by
  cases f with
  | single d =>
    have hgroup : d.toJson.member? "group" = none := rfl
    rw [toJson, ofJson?, hgroup]
    simp [Described.ofJson?_toJson, plain]
  | group label members =>
    have hmembers := mapM_map_eq_some Described.ofJson?_toJson members
    simp [ofJson?, toJson, Json.member?, Json.member, Json.text?, Json.items?, hmembers, plain]

/-- Findings are read back from what they were written as, up to the notes. -/
theorem findingsOf?_findingsJson (fs : List Finding) :
    findingsOf? (findingsJson fs) = some (fs.map Finding.plain) :=
  mapM_map_eq_some Finding.ofJson?_toJson fs

/-! ## Findings on items -/

namespace Finding

/-- What a finding calls its item. -/
def label : Finding → String
  | single d => d.descriptor
  | group label _ => label

/-- None of the requirements of the finding is met by the record. -/
def Fails (record : Value) (f : Finding) : Prop :=
  ∀ d ∈ f.described, ¬ d.requirement.IsMet record

instance (record : Value) (f : Finding) : Decidable (f.Fails record) :=
  inferInstanceAs (Decidable (∀ d ∈ f.described, ¬ d.requirement.IsMet record))

/-- The finding is on the item: it has its label and its members, and the
requirements are those that the members stand for, notes apart. -/
structure IsOn (f : Finding) (i : TextItem) : Prop where
  label_eq : f.label = i.label
  members_eq : f.described.map Described.descriptor = i.members
  parsed : ∀ d ∈ f.described,
    ∃ notes, Descriptor.parse d.descriptor = .ok { d.requirement with notes := notes }

end Finding

theorem descriptors_of_describeAll {ds : List String} {found : List Described}
    (h : (describeAll (ds.map .text)).result = .ok found) :
    found.map Described.descriptor = ds := by
  induction ds generalizing found with
  | nil =>
    cases h
    rfl
  | cons d ds ih =>
    obtain ⟨first, hfirst, h⟩ := Traced.of_result_bind h
    obtain ⟨others, hothers, h⟩ := Traced.of_result_bind h
    obtain ⟨r, -, hfirst⟩ := Traced.of_result_bind hfirst
    cases hfirst
    cases h
    rw [List.map_cons, ih hothers]

theorem isOn_of_discoverItem {i : TextItem} {f : Finding}
    (h : (discoverItem (Item.ofValue i.toValue)).result = .ok f) : f.IsOn i := by
  have hparsed : ∀ d ∈ f.described,
      ∃ notes, Descriptor.parse d.descriptor = .ok { d.requirement with notes := notes } :=
    fun d hd => ⟨d.requirement.notes, isParsed_of_discoverItem h d hd⟩
  -- A list and a tuple stand for the same group.
  have hgroup : ∀ ds : List String, (discoverItem (.group (ds.map .text))).result = .ok f →
      f.label = " or ".intercalate ds ∧ f.described.map Described.descriptor = ds := by
    intro ds h
    obtain ⟨label, hlabel, h⟩ := Traced.of_result_bind h
    obtain ⟨found, hfound, h⟩ := Traced.of_result_bind h
    rw [Item.groupLabel_texts] at hlabel
    cases hlabel
    cases h
    exact ⟨rfl, descriptors_of_describeAll hfound⟩
  cases i with
  | single d =>
    obtain ⟨found, hfound, h⟩ := Traced.of_result_bind h
    obtain ⟨r, -, hfound⟩ := Traced.of_result_bind hfound
    cases hfound
    cases h
    exact ⟨rfl, rfl, hparsed⟩
  | list ds => exact ⟨(hgroup ds h).1, (hgroup ds h).2, hparsed⟩
  | tuple ds => exact ⟨(hgroup ds h).1, (hgroup ds h).2, hparsed⟩

theorem isOn_of_discoverItems {items : List TextItem} {fs : List Finding}
    (h : (discoverItems ((items.map TextItem.toValue).map Item.ofValue)).result = .ok fs) :
    List.Forall₂ Finding.IsOn fs items := by
  induction items generalizing fs with
  | nil =>
    cases h
    exact .nil
  | cons i rest ih =>
    obtain ⟨first, hfirst, h⟩ := Traced.of_result_bind h
    obtain ⟨others, hothers, h⟩ := Traced.of_result_bind h
    cases h
    exact .cons (isOn_of_discoverItem hfirst) (ih hothers)

/-- There is one finding on each item, in order. -/
theorem isOn_of_discover {descriptors : Value} {items : List TextItem} {fs : List Finding}
    (hitems : Lists descriptors items) (h : (discover descriptors).result = .ok fs) :
    List.Forall₂ Finding.IsOn fs items := by
  obtain ⟨found, hfound, h⟩ := Traced.of_result_bind h
  obtain rfl : found = (items.map TextItem.toValue).map Item.ofValue :=
    Except.ok.inj (hfound.symm.trans hitems.listOf_eq)
  exact isOn_of_discoverItems h

namespace Finding

variable {f : Finding} {i : TextItem} {record : Value}

theorem label_plain (f : Finding) : f.plain.label = f.label := by cases f <;> rfl

theorem described_plain (f : Finding) : f.plain.described = f.described.map Described.plain := by
  cases f <;> rfl

theorem IsOn.plain (h : f.IsOn i) : f.plain.IsOn i where
  label_eq := f.label_plain.trans h.label_eq
  members_eq := by
    rw [described_plain, List.map_map]
    exact h.members_eq
  parsed := by
    rw [described_plain]
    exact List.forall_mem_map.2 h.parsed

/-! ## Findings and checks -/

/-- What a requirement that was found says of a record is what the check of its
descriptor says. -/
theorem IsOn.isMet_eq (h : f.IsOn i) {d : Described} (hd : d ∈ f.described) :
    (Descriptor.isMet (.text d.descriptor) record).result = d.requirement.isMet record := by
  obtain ⟨notes, hparse⟩ := h.parsed d hd
  rw [Descriptor.result_isMet_text, hparse]
  exact Descriptor.isMet_notes _ notes record

theorem IsOn.fails_iff (h : f.IsOn i) : f.Fails record ↔ i.Fails record := by
  rw [TextItem.Fails, ← h.members_eq, List.forall_mem_map]
  refine forall₂_congr fun d hd => not_congr ?_
  rw [Passes, h.isMet_eq hd, Requirement.IsMet]

theorem IsOn.isReadable (h : f.IsOn i) : i.IsReadable := by
  rw [TextItem.IsReadable, ← h.members_eq, List.forall_mem_map]
  intro d hd
  obtain ⟨notes, hparse⟩ := h.parsed d hd
  exact ⟨_, hparse⟩

theorem IsOn.exists_isMet (h : f.IsOn i) (hrecord : record.isWritable = true) {d : Described}
    (hd : d ∈ f.described) : ∃ met, d.requirement.isMet record = .ok met := by
  obtain ⟨notes, hparse⟩ := h.parsed d hd
  obtain ⟨met, hmet⟩ := Descriptor.exists_isMet hparse hrecord
  exact ⟨met, (h.isMet_eq hd).symm.trans hmet⟩

end Finding

theorem exists_mem_of_forall₂ {α β : Type} {R : α → β → Prop} {as : List α} {bs : List β}
    (h : List.Forall₂ R as bs) {a : α} (ha : a ∈ as) : ∃ b ∈ bs, R a b := by
  induction h with
  | nil => simp at ha
  | cons hab _ ih =>
    rcases List.mem_cons.1 ha with rfl | ha
    · exact ⟨_, by simp, hab⟩
    · obtain ⟨b, hb, h⟩ := ih ha
      exact ⟨b, List.mem_cons_of_mem _ hb, h⟩

theorem labels_filter_fails {fs : List Finding} {items : List TextItem} (record : Value)
    (h : List.Forall₂ Finding.IsOn fs items) :
    (fs.filter (·.Fails record)).map Finding.label
      = (items.filter (·.Fails record)).map TextItem.label := by
  induction h with
  | nil => rfl
  | @cons f i fs items hfirst _ ih =>
    by_cases hi : i.Fails record
    · simp [hi, hfirst.fails_iff.2 hi, ih, hfirst.label_eq]
    · have hf : ¬ f.Fails record := fun hf => hi (hfirst.fails_iff.1 hf)
      simp [hi, hf, ih]

/-- Where discovery has findings, they can be read back from what is written:
one on each item, in order, with its label and its members. The requirements
that are read back decide about every record whose numbers can be written, and
a check lists the labels of the findings none of whose requirements is met. -/
theorem check_eq_failing_findings {descriptors : Value} {items : List TextItem}
    {found : List Finding} (hitems : Lists descriptors items)
    (hfound : (discover descriptors).result = .ok found) :
    ∃ fs, findingsOf? (findingsJson found) = some fs
      ∧ fs.map Finding.label = items.map TextItem.label
      ∧ fs.map (fun f => f.described.map Described.descriptor) = items.map TextItem.members
      ∧ ∀ record : Value, record.isWritable = true →
        (∀ f ∈ fs, ∀ d ∈ f.described, ∃ met, d.requirement.isMet record = .ok met)
        ∧ ∃ o, (check descriptors record).result = .ok o
          ∧ o.labels = (fs.filter (·.Fails record)).map Finding.label := by
  have hon : List.Forall₂ Finding.IsOn (found.map Finding.plain) items :=
    List.forall₂_map_left_iff.2 ((isOn_of_discover hitems hfound).imp fun _ _ h => h.plain)
  have hlabels : (found.map Finding.plain).map Finding.label = items.map TextItem.label := by
    rw [← List.forall₂_eq_eq_eq, List.forall₂_map_left_iff, List.forall₂_map_right_iff]
    exact hon.imp fun _ _ h => h.label_eq
  have hmembers : (found.map Finding.plain).map (fun f => f.described.map Described.descriptor)
      = items.map TextItem.members := by
    rw [← List.forall₂_eq_eq_eq, List.forall₂_map_left_iff, List.forall₂_map_right_iff]
    exact hon.imp fun _ _ h => h.members_eq
  refine ⟨_, findingsOf?_findingsJson found, hlabels, hmembers, fun record hrecord => ⟨?_, ?_⟩⟩
  · intro f hf d hd
    obtain ⟨i, -, hi⟩ := exists_mem_of_forall₂ hon hf
    exact hi.exists_isMet hrecord hd
  · have hread : ∀ i ∈ items, i.Evaluable record := by
      intro i hi
      obtain ⟨f, -, hf⟩ := exists_mem_of_forall₂ hon.flip hi
      exact hf.isReadable.evaluable hrecord
    exact ⟨_, result_check hitems hread, (labels_filter_fails record hon).symm⟩

/-- Items with a descriptor that is understood in part only, and with a group of nothing. -/
def roughItems : List TextItem :=
  [.single "*(strng@ 07 @x)a//b(", .tuple ["(int@3)name", "*b"], .list []]

theorem check_eq_failing_findings_rough :
    Lists (.list (roughItems.map TextItem.toValue)) roughItems ∧ sparse.isWritable = true
      ∧ ∃ found fs, (discover (.list (roughItems.map TextItem.toValue))).result = .ok found
        ∧ findingsOf? (findingsJson found) = some fs
        ∧ fs.map Finding.label = ["*(strng@ 07 @x)a//b(", "(int@3)name or *b", ""]
        ∧ ∃ o, (check (.list (roughItems.map TextItem.toValue)) sparse).result = .ok o
          ∧ o.labels = (fs.filter (·.Fails sparse)).map Finding.label := by
  have hitems : Lists (.list (roughItems.map TextItem.toValue)) roughItems := rfl
  have hfound : (discover (.list (roughItems.map TextItem.toValue))).result
      = .ok [.single ⟨"*(strng@ 07 @x)a//b(", Descriptor.degraded⟩,
        .group "(int@3)name or *b" [⟨"(int@3)name", ⟨false, .integer, some 3, ["name"], "int", []⟩⟩,
          ⟨"*b", ⟨true, .any, none, ["b"], "", []⟩⟩], .group "" []] := rfl
  have hsparse : sparse.isWritable = true := by
    have hzero : Decimal.isWritable 0 = true := (Decimal.digits_le_limit_iff 0).1 (by decide)
    simp [sparse, Value.isWritable, Value.entriesWritable, hzero]
  obtain ⟨fs, hfs, hlabels, -, hcheck⟩ := check_eq_failing_findings hitems hfound
  exact ⟨hitems, hsparse, _, fs, hfound, hfs, hlabels, (hcheck sparse hsparse).2⟩

end FieldCheck
