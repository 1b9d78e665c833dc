/-
FieldCheck.Proofs.Check.Search — how far a check comes.

A check comes to an end at the first fault. It does not come to all members: in a
group the search ends at the first one that is met, and what stands behind it is
not looked at, whatever it is. `IsExposed P` says of the members of an item that
one of them has the property `P` and that none in front of it is met. It has the
two equations of the search (`isExposed_cons_iff`), so that all that is said here
goes by one induction on the members.

* `exists_anyMet_error_iff` — a search ends with a fault exactly when a member that
  is one is exposed.
* `exists_check_iff` — a check has an outcome exactly when no fault is exposed in
  any of its items.
-/
import FieldCheck.Check

namespace FieldCheck

open Traced

variable {record v : Value} {vs rest : List Value}

/-! ## Members -/

/-- One of the members has the property, and none in front of it is met. -/
def IsExposed (record : Value) (P : Value → Prop) (vs : List Value) : Prop :=
  ∃ before v after, vs = before ++ v :: after ∧ P v
    ∧ ∀ u ∈ before, (Descriptor.isMet u record).result ≠ .ok true

/-- The member is no descriptor, or cannot be compared with the record. -/
def IsFault (record v : Value) : Prop := ∃ f, (Descriptor.isMet v record).result = .error f

variable {P Q : Value → Prop}

theorem not_isExposed_nil : ¬ IsExposed record P [] := by
  intro ⟨before, v, after, hvs, _⟩
  simp at hvs

theorem isExposed_cons_iff : IsExposed record P (v :: rest)
    ↔ P v ∨ ((Descriptor.isMet v record).result ≠ .ok true ∧ IsExposed record P rest) := by
  constructor
  · intro ⟨before, u, after, hvs, hu, hbefore⟩
    cases before with
    | nil =>
      simp only [List.nil_append, List.cons.injEq] at hvs
      exact .inl (hvs.1 ▸ hu)
    | cons w before =>
      simp only [List.cons_append, List.cons.injEq] at hvs
      obtain ⟨rfl, hrest⟩ := hvs
      exact .inr ⟨hbefore _ (by simp), before, u, after, hrest, hu,
        fun x hx => hbefore x (List.mem_cons_of_mem _ hx)⟩
  · intro h
    rcases h with hv | ⟨hv, before, u, after, rfl, hu, hbefore⟩
    · exact ⟨[], v, rest, rfl, hv, by simp⟩
    · exact ⟨v :: before, u, after, rfl, hu, List.forall_mem_cons.2 ⟨hv, hbefore⟩⟩

theorem IsExposed.imp (h : IsExposed record P vs) (hPQ : ∀ v ∈ vs, P v → Q v) :
    IsExposed record Q vs := by
  obtain ⟨before, v, after, rfl, hv, hbefore⟩ := h
  exact ⟨before, v, after, rfl, hPQ v (by simp) hv, hbefore⟩

theorem anyMet_cons_true (rest : List Value) (h : (Descriptor.isMet v record).result = .ok true) :
    (anyMet (v :: rest) record).result = .ok true := by
  rw [anyMet, result_bind_ok _ h]
  rfl

theorem anyMet_cons_false (rest : List Value)
    (h : (Descriptor.isMet v record).result = .ok false) :
    (anyMet (v :: rest) record).result = (anyMet rest record).result := by
  rw [anyMet, result_bind_ok _ h]
  rfl

theorem anyMet_cons_error (rest : List Value) {f : Fault}
    (h : (Descriptor.isMet v record).result = .error f) :
    (anyMet (v :: rest) record).result = .error f := by
  rw [anyMet, result_bind_error _ h]

/-- A search with an answer has one for its first member. It ends there if that is met. -/
theorem anyMet_cons_eq_ok {met : Bool} (h : (anyMet (v :: rest) record).result = .ok met) :
    ((Descriptor.isMet v record).result = .ok true ∧ met = true)
      ∨ ((Descriptor.isMet v record).result = .ok false
        ∧ (anyMet rest record).result = .ok met) := by
  cases hv : (Descriptor.isMet v record).result with
  | error f =>
    rw [anyMet_cons_error rest hv] at h
    cases h
  | ok first =>
    cases first with
    | true =>
      rw [anyMet_cons_true rest hv] at h
      exact .inl ⟨rfl, (Except.ok.inj h).symm⟩
    | false => exact .inr ⟨rfl, (anyMet_cons_false rest hv).symm.trans h⟩

/-- The fault with which a search ends is that of a member that is exposed. -/
theorem isExposed_of_anyMet {f : Fault} (h : (anyMet vs record).result = .error f) :
    IsExposed record (fun v => (Descriptor.isMet v record).result = .error f) vs := by
  induction vs with
  | nil => cases h
  | cons v rest ih =>
    rw [isExposed_cons_iff]
    cases hv : (Descriptor.isMet v record).result with
    | error e =>
      rw [anyMet_cons_error rest hv] at h
      exact .inl h
    | ok met =>
      cases met with
      | true =>
        rw [anyMet_cons_true rest hv] at h
        cases h
      | false =>
        rw [anyMet_cons_false rest hv] at h
        exact .inr ⟨by simp, ih h⟩

/-- A search ends with a fault exactly when a member that is one is exposed. -/
theorem exists_anyMet_error_iff :
    (∃ f, (anyMet vs record).result = .error f) ↔ IsExposed record (IsFault record) vs := by
  constructor
  · intro ⟨f, hf⟩
    exact (isExposed_of_anyMet hf).imp fun v _ hv => ⟨f, hv⟩
  · intro h
    induction vs with
    | nil => exact absurd h not_isExposed_nil
    | cons v rest ih =>
      rw [isExposed_cons_iff] at h
      cases hv : (Descriptor.isMet v record).result with
      | error f => exact ⟨f, anyMet_cons_error rest hv⟩
      | ok met =>
        have hnone : ¬ IsFault record v := by simp [IsFault, hv]
        obtain ⟨hmet, hrest⟩ := h.resolve_left hnone
        cases met with
        | true => exact absurd hv hmet
        | false =>
          rw [anyMet_cons_false rest hv]
          exact ih hrest

/-- A search that has an answer finds a member that is met if there is one. -/
theorem anyMet_eq_ok {met : Bool} (h : (anyMet vs record).result = .ok met) :
    met = true ↔ ∃ v ∈ vs, (Descriptor.isMet v record).result = .ok true := by
  induction vs with
  | nil =>
    cases h
    simp
  | cons v rest ih =>
    rcases anyMet_cons_eq_ok h with ⟨hv, rfl⟩ | ⟨hv, hrest⟩
    · simp [hv]
    · simp [hv, ih hrest]

/-- A search that finds nothing has come to all members, and each has an answer. -/
theorem anyMet_eq_false (h : (anyMet vs record).result = .ok false) :
    ∀ v ∈ vs, (Descriptor.isMet v record).result = .ok false := by
  induction vs with
  | nil => simp
  | cons v rest ih =>
    rcases anyMet_cons_eq_ok h with ⟨-, hmet⟩ | ⟨hv, hrest⟩
    · cases hmet
    · exact List.forall_mem_cons.2 ⟨hv, ih hrest⟩

/-! ## Items -/

/-- Only a text has an answer. -/
theorem isText_of_isMet {met : Bool} (h : (Descriptor.isMet v record).result = .ok met) :
    v.isText = true := by
  cases v with
  | text s => rfl
  | _ => cases h

theorem exists_text_of_isText (h : v.isText = true) : ∃ s, v = .text s := by
  cases v with
  | text s => exact ⟨s, rfl⟩
  | _ => cases h

theorem exists_texts {vs : List Value} (h : ∀ v ∈ vs, v.isText = true) :
    ∃ ss : List String, vs = ss.map .text := by
  induction vs with
  | nil => exact ⟨[], rfl⟩
  | cons v rest ih =>
    rw [List.forall_mem_cons] at h
    obtain ⟨s, rfl⟩ := exists_text_of_isText h.1
    obtain ⟨ss, rfl⟩ := ih h.2
    exact ⟨s :: ss, rfl⟩

namespace Item

variable {i : Item}

/-- An item of texts has a label. -/
theorem exists_label (h : ∀ v ∈ i.members, v.isText = true) : ∃ label, i.label = .ok label := by
  cases i with
  | single v =>
    obtain ⟨s, rfl⟩ := exists_text_of_isText (h v (by simp [members]))
    exact ⟨s, rfl⟩
  | group vs =>
    obtain ⟨ss, rfl⟩ := exists_texts h
    exact ⟨_, groupLabel_texts ss⟩

theorem failure_of_true (h : (anyMet i.members record).result = .ok true) :
    (i.failure record).result = .ok none := by
  rw [failure, result_bind_ok _ h]
  rfl

/-- When the label of an item is needed, all its members are known to be texts. -/
theorem failure_of_false (h : (anyMet i.members record).result = .ok false) :
    ∃ label, i.label = .ok label ∧ (i.failure record).result = .ok (some label) := by
  obtain ⟨label, hlabel⟩ := i.exists_label fun v hv => isText_of_isMet (anyMet_eq_false h v hv)
  refine ⟨label, hlabel, ?_⟩
  rw [failure, result_bind_ok _ h]
  show (ofExcept i.label >>= fun l => pure (some l)).result = _
  rw [result_bind_ok _ hlabel]
  rfl

theorem failure_eq_error_iff {f : Fault} :
    (i.failure record).result = .error f ↔ (anyMet i.members record).result = .error f := by
  cases h : (anyMet i.members record).result with
  | error e => simp [failure, result_bind_error _ h]
  | ok met =>
    cases met with
    | true => simp [failure_of_true h]
    | false =>
      obtain ⟨label, -, hfailure⟩ := failure_of_false h
      simp [hfailure]

end Item

/-! ## Checks -/

variable {items : List Item} {descriptors : Value}

/-- The fault with which a run through items ends is that of one of them. -/
theorem exists_item_of_failures {f : Fault} (h : (failures items record).result = .error f) :
    ∃ i ∈ items, (i.failure record).result = .error f := by
  induction items with
  | nil => cases h
  | cons i rest ih =>
    cases hi : (i.failure record).result with
    | error e =>
      rw [failures, result_bind_error _ hi, Except.error.injEq] at h
      exact ⟨i, by simp, h ▸ hi⟩
    | ok first =>
      cases hrest : (failures rest record).result with
      | error e =>
        rw [failures, result_bind_ok _ hi, result_bind_error _ hrest] at h
        obtain ⟨j, hj, hfault⟩ := ih (hrest.trans h)
        exact ⟨j, List.mem_cons_of_mem _ hj, hfault⟩
      | ok others =>
        rw [failures, result_bind_ok _ hi, result_bind_ok _ hrest] at h
        cases h

/-- A run through items that has a result has come to each of them. -/
theorem exists_failure_of_failures {labels : List String}
    (h : (failures items record).result = .ok labels) :
    ∀ i ∈ items, ∃ a, (i.failure record).result = .ok a := by
  induction items generalizing labels with
  | nil => simp
  | cons i rest ih =>
    obtain ⟨first, hfirst, h⟩ := of_result_bind h
    obtain ⟨others, hothers, -⟩ := of_result_bind h
    exact List.forall_mem_cons.2 ⟨⟨first, hfirst⟩, ih hothers⟩

theorem result_check_of_listOf (h : Item.listOf descriptors = .ok items) :
    (check descriptors record).result = (failures items record).result.map Outcome.mk := by
  rw [check, result_bind_ok _ (show (ofExcept (Item.listOf descriptors)).result = .ok items from h),
    checkItems]
  cases hlabels : (failures items record).result with
  | error f => rw [result_bind_error _ hlabels]; rfl
  | ok labels => rw [result_bind_ok _ hlabels]; rfl

/-- A check with an outcome has the labels of the items that fail. -/
theorem failures_of_check {o : Outcome} (hlist : Item.listOf descriptors = .ok items)
    (h : (check descriptors record).result = .ok o) :
    (failures items record).result = .ok o.labels := by
  rw [result_check_of_listOf hlist] at h
  cases hlabels : (failures items record).result with
  | error f =>
    rw [hlabels] at h
    cases h
  | ok labels =>
    rw [hlabels] at h
    cases h
    rfl

/-- The fault with which a check ends is that of a member that is exposed. -/
theorem exists_isExposed_of_check {f : Fault} (hlist : Item.listOf descriptors = .ok items)
    (h : (check descriptors record).result = .error f) : ∃ i ∈ items,
      IsExposed record (fun v => (Descriptor.isMet v record).result = .error f) i.members := by
  rw [result_check_of_listOf hlist] at h
  cases hlabels : (failures items record).result with
  | ok labels =>
    rw [hlabels] at h
    cases h
  | error e =>
    rw [hlabels] at h
    cases h
    obtain ⟨i, hi, hfault⟩ := exists_item_of_failures hlabels
    exact ⟨i, hi, isExposed_of_anyMet (Item.failure_eq_error_iff.1 hfault)⟩

/-- A check has an outcome exactly when no fault is exposed in any item. -/
theorem exists_check_iff (hlist : Item.listOf descriptors = .ok items) :
    (∃ o, (check descriptors record).result = .ok o)
      ↔ ∀ i ∈ items, ¬ IsExposed record (IsFault record) i.members := by
  constructor
  · intro ⟨o, ho⟩ i hi hexposed
    obtain ⟨a, ha⟩ := exists_failure_of_failures (failures_of_check hlist ho) i hi
    obtain ⟨f, hf⟩ := exists_anyMet_error_iff.2 hexposed
    rw [Item.failure_eq_error_iff.2 hf] at ha
    cases ha
  · intro h
    cases hcheck : (check descriptors record).result with
    | ok o => exact ⟨o, rfl⟩
    | error f =>
      obtain ⟨i, hi, hexposed⟩ := exists_isExposed_of_check hlist hcheck
      exact absurd (hexposed.imp fun v _ hv => ⟨f, hv⟩) (h i hi)

end FieldCheck
