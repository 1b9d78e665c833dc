/-
FieldCheck.Proofs.Check.Aggregation — which labels a check lists.

A `TextItem` is an item made of texts: a descriptor, or a group of descriptors
in a list or a tuple. An item fails when the record passes none of its members;
an empty group has no members, so it always fails. A check lists the labels of
the items that fail, in their order and with repetitions, and it is good exactly
when no item fails (`check_lists_failing`). Being good is not the same as having
nothing to say: an empty group is listed with the empty label.

Members are tried only up to the first one that is passed. A search that has an
answer finds a member exactly if there is one, so the outcome lists the items that
fail wherever there is an outcome (`labels_of_check`), and there is one when each
member can be evaluated (`result_check`). Only then does the order of the members
lose its influence.
-/
import Mathlib.Data.List.Forall2
import FieldCheck.Proofs.Check.Search
import FieldCheck.Proofs.Descriptor.Canonical

namespace FieldCheck

/-! ## Items of texts -/

/-- An item that is made of texts. -/
inductive TextItem where
  | single (descriptor : String)
  | list (members : List String)
  | tuple (members : List String)

namespace TextItem

/-- The item as a value. -/
def toValue : TextItem → Value
  | single d => .text d
  | list ds => .list (ds.map .text)
  | tuple ds => .tuple (ds.map .text)

/-- The descriptors of the item. -/
def members : TextItem → List String
  | single d => [d]
  | list ds => ds
  | tuple ds => ds

/-- What the item is called in an outcome. -/
def label : TextItem → String
  | single d => d
  | list ds => " or ".intercalate ds
  | tuple ds => " or ".intercalate ds

/-- Two items differ at most in the order of their members. -/
inductive Rearranges : TextItem → TextItem → Prop
  | single (d : String) : Rearranges (single d) (single d)
  | list {ds es : List String} (h : ds.Perm es) : Rearranges (list ds) (list es)
  | tuple {ds es : List String} (h : ds.Perm es) : Rearranges (tuple ds) (tuple es)

theorem members_ofValue (i : TextItem) :
    (Item.ofValue i.toValue).members = i.members.map .text := by
  cases i <;> rfl

theorem label_ofValue (i : TextItem) : (Item.ofValue i.toValue).label = .ok i.label := by
  cases i with
  | single d => rfl
  | list ds => exact Item.groupLabel_texts ds
  | tuple ds => exact Item.groupLabel_texts ds

theorem Rearranges.mem_members_iff {i j : TextItem} (h : Rearranges i j) (d : String) :
    d ∈ i.members ↔ d ∈ j.members := by
  cases h with
  | single d => rfl
  | list h => exact h.mem_iff
  | tuple h => exact h.mem_iff

end TextItem

/-- The value holds the items, as a list, a tuple or another sequence. -/
def Lists (descriptors : Value) (items : List TextItem) : Prop :=
  descriptors.elements = .ok (items.map TextItem.toValue)

theorem lists_list (items : List TextItem) : Lists (.list (items.map TextItem.toValue)) items := rfl

theorem Lists.listOf_eq {descriptors : Value} {items : List TextItem} (h : Lists descriptors items) :
    Item.listOf descriptors = .ok ((items.map TextItem.toValue).map Item.ofValue) := by
  rw [Item.listOf, h]
  rfl

/-! ## Passing and failing -/

/-- The record passes a descriptor. -/
def Passes (record : Value) (d : String) : Prop :=
  (Descriptor.isMet (.text d) record).result = .ok true

instance (record : Value) (d : String) : Decidable (Passes record d) :=
  match h : (Descriptor.isMet (.text d) record).result with
  | .ok true => isTrue h
  | .ok false => isFalse (by simp [Passes, h])
  | .error _ => isFalse (by simp [Passes, h])

namespace TextItem

/-- Evaluating a member of the item is never a fault. -/
def Evaluable (record : Value) (i : TextItem) : Prop :=
  ∀ d ∈ i.members, ∀ f, (Descriptor.isMet (.text d) record).result ≠ .error f

/-- The record passes no member of the item. -/
def Fails (record : Value) (i : TextItem) : Prop := ∀ d ∈ i.members, ¬ Passes record d

instance (record : Value) (i : TextItem) : Decidable (Fails record i) :=
  inferInstanceAs (Decidable (∀ d ∈ i.members, ¬ Passes record d))

variable {record : Value}

theorem not_fails_iff {i : TextItem} : ¬ i.Fails record ↔ ∃ d ∈ i.members, Passes record d := by
  simp [Fails]

theorem Rearranges.fails_iff {i j : TextItem} (h : Rearranges i j) :
    i.Fails record ↔ j.Fails record := by
  simp [Fails, h.mem_members_iff]

theorem Rearranges.evaluable_iff {i j : TextItem} (h : Rearranges i j) :
    i.Evaluable record ↔ j.Evaluable record := by
  simp [Evaluable, h.mem_members_iff]

end TextItem

/-! ## Checks -/

variable {record : Value}

theorem isExposed_map_text_iff {P : Value → Prop} {ds : List String} :
    IsExposed record P (ds.map .text) ↔ ∃ before d after, ds = before ++ d :: after ∧ P (.text d)
      ∧ ∀ e ∈ before, ¬ Passes record e := by
  constructor
  · intro ⟨before, v, after, hvs, hv, hbefore⟩
    obtain ⟨front, back, rfl, rfl, hback⟩ := List.map_eq_append_iff.1 hvs
    obtain ⟨d, rest, rfl, rfl, rfl⟩ := List.map_eq_cons_iff.1 hback
    exact ⟨front, d, rest, rfl, hv, fun e he => hbefore _ (List.mem_map_of_mem he)⟩
  · intro ⟨before, d, after, hds, hd, hbefore⟩
    exact ⟨before.map .text, .text d, after.map .text, by simp [hds], hd,
      List.forall_mem_map.2 hbefore⟩

theorem failure_of_textItem {i : TextItem} {a : Option String}
    (h : ((Item.ofValue i.toValue).failure record).result = .ok a) :
    a = if i.Fails record then some i.label else none := by
  cases hany : (anyMet (Item.ofValue i.toValue).members record).result with
  | error f =>
    rw [Item.failure_eq_error_iff.2 hany] at h
    cases h
  | ok met =>
    have hiff := anyMet_eq_ok hany
    rw [TextItem.members_ofValue] at hiff
    cases met with
    | true =>
      have hpass : ¬ i.Fails record := by
        rw [TextItem.not_fails_iff]
        simpa [Passes] using hiff
      rw [Item.failure_of_true hany, Except.ok.injEq] at h
      simp [← h, hpass]
    | false =>
      have hfail : i.Fails record := by
        simpa [TextItem.Fails, Passes] using hiff
      obtain ⟨label, hlabel, hfailure⟩ := Item.failure_of_false hany
      rw [TextItem.label_ofValue, Except.ok.injEq] at hlabel
      rw [hfailure, Except.ok.injEq] at h
      simp [← h, hfail, hlabel]

theorem labels_of_failures {items : List TextItem} {labels : List String}
    (h : (failures ((items.map TextItem.toValue).map Item.ofValue) record).result = .ok labels) :
    labels = (items.filter (·.Fails record)).map TextItem.label := by
  induction items generalizing labels with
  | nil =>
    cases h
    rfl
  | cons i rest ih =>
    obtain ⟨first, hfirst, h⟩ := Traced.of_result_bind h
    obtain ⟨others, hothers, h⟩ := Traced.of_result_bind h
    obtain rfl : first.toList ++ others = labels := Except.ok.inj h
    rw [failure_of_textItem hfirst, ih hothers]
    by_cases hi : i.Fails record <;> simp [hi]

/-- A check that has an outcome lists the items that fail, all of them and in order. -/
theorem labels_of_check {descriptors : Value} {items : List TextItem} {o : Outcome}
    (hitems : Lists descriptors items) (h : (check descriptors record).result = .ok o) :
    o.labels = (items.filter (·.Fails record)).map TextItem.label :=
  labels_of_failures (failures_of_check hitems.listOf_eq h)

theorem result_check {descriptors : Value} {items : List TextItem}
    (hitems : Lists descriptors items) (h : ∀ i ∈ items, i.Evaluable record) :
    (check descriptors record).result
      = .ok ⟨(items.filter (·.Fails record)).map TextItem.label⟩ := by
  have hnone : ∀ i ∈ items, ¬ IsExposed record (IsFault record) (i.members.map .text) := by
    intro i hi hexposed
    obtain ⟨before, d, after, hmembers, ⟨f, hf⟩, -⟩ := isExposed_map_text_iff.1 hexposed
    exact h i hi d (by simp [hmembers]) f hf
  obtain ⟨o, ho⟩ : ∃ o, (check descriptors record).result = .ok o :=
    (exists_check_iff hitems.listOf_eq).2 (by simpa [TextItem.members_ofValue] using hnone)
  rw [ho, ← labels_of_check hitems ho]

/-! ## Outcomes -/

/-- A report says that all is well exactly for a good outcome. -/
theorem status_mem_iff {o : Outcome} {front : Value} {r : Report} (h : o.report front = .ok r) :
    ("status", Json.text "ok") ∈ r.members ↔ o.isOk = true := by
  rw [Outcome.report] at h
  split at h
  · rename_i hok
    cases h
    simp [Report.members, hok]
  · rename_i hok
    cases hm : o.message front with
    | error f => simp [hm, Except.map] at h
    | ok text =>
      rw [hm] at h
      cases h
      simp [Report.members, hok]

theorem isOk_failing_iff (items : List TextItem) (record : Value) :
    (Outcome.mk ((items.filter (·.Fails record)).map TextItem.label)).isOk = true
      ↔ ∀ i ∈ items, ∃ d ∈ i.members, Passes record d := by
  simp only [Outcome.isOk_iff, List.map_eq_nil_iff, List.filter_eq_nil_iff, decide_eq_true_iff,
    TextItem.not_fails_iff]

theorem evaluable_of_rearranges {items others : List TextItem}
    (h : List.Forall₂ TextItem.Rearranges items others)
    (hitems : ∀ i ∈ items, i.Evaluable record) : ∀ j ∈ others, j.Evaluable record := by
  induction h with
  | nil => simp
  | cons hij _ ih =>
    intro j hj
    rcases List.mem_cons.1 hj with rfl | hj
    · exact hij.evaluable_iff.1 (hitems _ (by simp))
    · exact ih (fun i hi => hitems i (List.mem_cons_of_mem _ hi)) j hj

/-- Items that differ only in the order of their members fail at the same places. -/
theorem filter_fails_of_rearranges {items others : List TextItem}
    (h : List.Forall₂ TextItem.Rearranges items others) :
    others.filter (·.Fails record)
      = ((items.zip others).filter (·.1.Fails record)).map Prod.snd := by
  induction h with
  | nil => rfl
  | @cons i j items others hij _ ih =>
    by_cases hi : i.Fails record
    · simp [hi, hij.fails_iff.1 hi, ih]
    · have hj : ¬ j.Fails record := fun hj => hi (hij.fails_iff.2 hj)
      simp [hi, hj, ih]

/-- A check lists the labels of the items that fail. Its outcome is good, and so
is every report on it, exactly when each item has a member that is passed. More
items at the end add their labels at the end, and the order of the members of a
group has no influence on which items are listed. -/
theorem check_lists_failing {descriptors : Value} {items : List TextItem} (record : Value)
    (hitems : Lists descriptors items) (hrecord : ∀ i ∈ items, i.Evaluable record) :
    ∃ o, (check descriptors record).result = .ok o
      ∧ o.labels = (items.filter (·.Fails record)).map TextItem.label
      ∧ (o.isOk = true ↔ ∀ i ∈ items, ∃ d ∈ i.members, Passes record d)
      ∧ (∀ message : String, ∃ r, o.report (.text message) = .ok r
        ∧ (("status", Json.text "ok") ∈ r.members
          ↔ ∀ i ∈ items, ∃ d ∈ i.members, Passes record d))
      ∧ (∀ {more whole : Value} {rest : List TextItem}, Lists more rest →
        Lists whole (items ++ rest) → (∀ i ∈ rest, i.Evaluable record) →
        ∃ o₁ o₂, (check more record).result = .ok o₁ ∧ (check whole record).result = .ok o₂
          ∧ o₂.labels = o.labels ++ o₁.labels)
      ∧ ∀ {rearranged : Value} {others : List TextItem}, Lists rearranged others →
        List.Forall₂ TextItem.Rearranges items others →
        ∃ o', (check rearranged record).result = .ok o'
          ∧ o'.labels
            = ((items.zip others).filter (·.1.Fails record)).map fun p => p.2.label := by
  have hok := isOk_failing_iff items record
  refine ⟨_, result_check hitems hrecord, rfl, hok, ?_, ?_, ?_⟩
  · intro message
    exact ⟨_, Outcome.report_text _ message, (status_mem_iff (Outcome.report_text _ _)).trans hok⟩
  · intro more whole rest hmore hwhole hrest
    have hall : ∀ i ∈ items ++ rest, i.Evaluable record := by
      intro i hi
      rcases List.mem_append.1 hi with hi | hi
      · exact hrecord i hi
      · exact hrest i hi
    exact ⟨_, _, result_check hmore hrest, result_check hwhole hall, by simp⟩
  · intro rearranged others hothers hperm
    refine ⟨_, result_check hothers (evaluable_of_rearranges hperm hrecord), ?_⟩
    simp [filter_fails_of_rearranges hperm]

/-- A record of which two items ask in vain: one for a field, and one for nothing at all. -/
def sparse : Value := .dict [(.text "b", .int 0)]

def sparseItems : List TextItem :=
  [.single "name", .tuple ["(int)name", "*b"], .list []]

theorem isMet_name_sparse : (Descriptor.isMet (.text "name") sparse).result = .ok false := by
  have h : Descriptor.parse "name" = .ok ⟨false, .any, none, ["name"], "", []⟩ := rfl
  rw [Descriptor.result_isMet_text, h]
  rfl

theorem isMet_b_sparse : (Descriptor.isMet (.text "*b") sparse).result = .ok true := by
  have h : Descriptor.parse "*b" = .ok ⟨true, .any, none, ["b"], "", []⟩ := rfl
  rw [Descriptor.result_isMet_text, h]
  rfl

theorem check_lists_failing_sparse :
    Lists (.list (sparseItems.map TextItem.toValue)) sparseItems
      ∧ (∀ i ∈ sparseItems, i.Evaluable sparse)
      ∧ ∃ o, (check (.list (sparseItems.map TextItem.toValue)) sparse).result = .ok o
        ∧ o.labels = ["name", ""] := by
  have hint : (Descriptor.isMet (.text "(int)name") sparse).result = .ok false := by
    have h : Descriptor.parse "(int)name" = .ok ⟨false, .integer, none, ["name"], "int", []⟩ := rfl
    rw [Descriptor.result_isMet_text, h]
    rfl
  have hrecord : ∀ i ∈ sparseItems, i.Evaluable sparse := by
    simp [sparseItems, TextItem.Evaluable, TextItem.members, isMet_name_sparse, hint,
      isMet_b_sparse]
  have hitems : Lists (.list (sparseItems.map TextItem.toValue)) sparseItems := rfl
  obtain ⟨o, ho, hlabels, -⟩ := check_lists_failing sparse hitems hrecord
  refine ⟨hitems, hrecord, o, ho, ?_⟩
  rw [hlabels]
  simp [sparseItems, TextItem.Fails, TextItem.members, TextItem.label, Passes, isMet_name_sparse,
    hint, isMet_b_sparse]

end FieldCheck
