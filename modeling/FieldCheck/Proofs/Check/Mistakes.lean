/-
FieldCheck.Proofs.Check.Mistakes — descriptors that are no texts.

What is not a text is no descriptor, and a check that comes to it fails. It comes to
every item, but not to every member of a group: the members behind one that is met
are not looked at. So whether the mistake is seen depends on the record.
`ShowsMistake` says when it is: no member in front of it is met.

* `isMet_of_not_isText`, `isAboutDigits_of_isMet_text` — a member that is no text is
  a fault about its kind, and one that is a text is a fault about digits at most.
* `checkItems_onlyTexts` — a check that has an outcome is the check of the same items
  without what is no text, with the same log.
* `mistake_reported_iff` — a mistake is reported exactly when an item shows one.
* `mistake_unreported_numbered` — one and the same mistake is reported on one record
  and not on another.
-/
import FieldCheck.Proofs.Check.Faults

namespace FieldCheck

open Traced

variable {record : Value}

/-! ## Members -/

theorem Descriptor.isMet_of_not_isText {v : Value} (h : v.isText = false) :
    (isMet v record).result = .error (.descriptorNotText v.kind) := by
  cases v with
  | text s => cases h
  | _ => rfl

theorem Descriptor.isAboutDigits_of_isMet_text {d : String} {f : Fault}
    (h : (isMet (.text d) record).result = .error f) : f.IsAboutDigits :=
  failsOnly_isMet (fun _ hf => hf) record (.inl ⟨d, rfl⟩) f h

/-- A member that is a fault, but not about digits, is no text. -/
theorem Descriptor.isText_eq_false {v : Value} {f : Fault}
    (h : (isMet v record).result = .error f) (hf : ¬ f.IsAboutDigits) : v.isText = false := by
  cases v with
  | text d => exact absurd (isAboutDigits_of_isMet_text h) hf
  | _ => rfl

/-- A search that has an answer has not come to a member that is no text. -/
theorem anyMet_filter_isText {vs : List Value} {met : Bool}
    (h : (anyMet vs record).result = .ok met) :
    anyMet (vs.filter (·.isText)) record = anyMet vs record := by
  induction vs with
  | nil => rfl
  | cons v rest ih =>
    have hstep := anyMet_cons_eq_ok h
    have htext : v.isText = true := hstep.elim (isText_of_isMet ·.1) (isText_of_isMet ·.1)
    rw [List.filter_cons_of_pos htext, anyMet, anyMet]
    refine bind_congr fun first hfirst => ?_
    cases first with
    | true => rfl
    | false =>
      rcases hstep with ⟨hv, -⟩ | ⟨-, hrest⟩
      · cases hv.symm.trans hfirst
      · exact ih hrest

/-! ## Items -/

namespace Item

variable {i : Item}

/-- A member of the item is no text, and the record meets none in front of it. -/
def ShowsMistake (record : Value) (i : Item) : Prop :=
  IsExposed record (fun v => v.isText = false) i.members

/-- The item without those of its members that are no texts. -/
def onlyTexts : Item → Item
  | single v => single v
  | group vs => group (vs.filter (·.isText))

/-- A mistake is shown if no text of the item is met. -/
theorem showsMistake_of_fails (hmistake : ∃ v ∈ i.members, v.isText = false)
    (hfails : ∀ d, .text d ∈ i.members → ¬ Passes record d) : i.ShowsMistake record := by
  obtain ⟨v, hv, hnot⟩ := hmistake
  obtain ⟨before, after, hmembers⟩ := List.append_of_mem hv
  refine ⟨before, v, after, hmembers, hnot, fun u hu hmet => ?_⟩
  obtain ⟨d, rfl⟩ := exists_text_of_isText (isText_of_isMet hmet)
  exact hfails d (by simp [hmembers, hu]) hmet

theorem failure_onlyTexts {a : Option String} (h : (i.failure record).result = .ok a) :
    i.onlyTexts.failure record = i.failure record := by
  cases i with
  | single v => rfl
  | group vs =>
    obtain ⟨met, hany, -⟩ := of_result_bind h
    have hsame : anyMet (vs.filter (·.isText)) record = anyMet vs record :=
      anyMet_filter_isText hany
    show anyMet (vs.filter (·.isText)) record >>= _ = anyMet vs record >>= _
    rw [hsame]
    refine bind_congr fun found hfound => ?_
    obtain rfl : met = found := Except.ok.inj (hany.symm.trans hfound)
    cases met with
    | true => rfl
    | false =>
      -- With nothing met all members were tried, so all are texts and none is left out.
      have hall : vs.filter (·.isText) = vs :=
        List.filter_eq_self.2 fun v hv => isText_of_isMet (anyMet_eq_false hany v hv)
      rw [onlyTexts, hall]

end Item

/-! ## Checks -/

variable {items : List Item} {descriptors : Value}

theorem failures_onlyTexts {labels : List String}
    (h : (failures items record).result = .ok labels) :
    failures (items.map Item.onlyTexts) record = failures items record := by
  induction items generalizing labels with
  | nil => rfl
  | cons i rest ih =>
    obtain ⟨first, hfirst, hthen⟩ := of_result_bind h
    obtain ⟨others, hothers, -⟩ := of_result_bind hthen
    rw [List.map_cons, failures, failures, Item.failure_onlyTexts hfirst, ih hothers]

theorem checkItems_onlyTexts {o : Outcome} (h : (checkItems items record).result = .ok o) :
    checkItems (items.map Item.onlyTexts) record = checkItems items record := by
  obtain ⟨labels, hlabels, -⟩ := of_result_bind h
  rw [checkItems, checkItems, failures_onlyTexts hlabels]

/-- With no trouble about digits, a check fails for a mistake or not at all. -/
theorem exists_mistake_of_check {f : Fault} (hlist : Item.listOf descriptors = .ok items)
    (h : (check descriptors record).result = .error f) (hf : ¬ f.IsAboutDigits) :
    (∃ i ∈ items, i.ShowsMistake record) ∧ ∃ kind, f = .descriptorNotText kind := by
  obtain ⟨i, hi, hexposed⟩ := exists_isExposed_of_check hlist h
  refine ⟨⟨i, hi, hexposed.imp fun v _ hv => Descriptor.isText_eq_false hv hf⟩, ?_⟩
  obtain ⟨before, v, after, -, hv, -⟩ := hexposed
  have hnot := Descriptor.isText_eq_false hv hf
  rw [Descriptor.isMet_of_not_isText hnot, Except.error.injEq] at hv
  exact ⟨v.kind, hv.symm⟩

theorem exists_error_of_showsMistake (hlist : Item.listOf descriptors = .ok items)
    (h : ∃ i ∈ items, i.ShowsMistake record) :
    ∃ f, (check descriptors record).result = .error f := by
  obtain ⟨i, hi, hshown⟩ := h
  cases hcheck : (check descriptors record).result with
  | error f => exact ⟨f, rfl⟩
  | ok o =>
    refine absurd (hshown.imp fun v _ hv => ?_) ((exists_check_iff hlist).1 ⟨o, hcheck⟩ i hi)
    exact ⟨_, Descriptor.isMet_of_not_isText hv⟩

/-- What is no text is reported exactly when an item shows it. An item whose texts all
fail always does; a mistake that is not shown changes nothing at all. -/
theorem mistake_reported_iff (record : Value) (hlist : Item.listOf descriptors = .ok items)
    (hquiet : ∀ f, (check descriptors record).result = .error f → ¬ f.IsAboutDigits) :
    ((∃ kind, (check descriptors record).result = .error (.descriptorNotText kind))
        ↔ ∃ i ∈ items, i.ShowsMistake record)
    ∧ (∀ i ∈ items, (∃ v ∈ i.members, v.isText = false) →
        (∀ d, .text d ∈ i.members → ¬ Passes record d) →
        ∃ kind, (check descriptors record).result = .error (.descriptorNotText kind))
    ∧ ((∀ i ∈ items, ¬ i.ShowsMistake record) →
        (∃ o, (check descriptors record).result = .ok o)
        ∧ check descriptors record = checkItems (items.map Item.onlyTexts) record) := by
  have hreported : (∃ i ∈ items, i.ShowsMistake record) →
      ∃ kind, (check descriptors record).result = .error (.descriptorNotText kind) := by
    intro hshown
    obtain ⟨f, hf⟩ := exists_error_of_showsMistake hlist hshown
    obtain ⟨-, kind, rfl⟩ := exists_mistake_of_check hlist hf (hquiet f hf)
    exact ⟨kind, hf⟩
  refine ⟨⟨fun ⟨kind, hf⟩ => ?_, hreported⟩, fun i hi hmistake hfails => ?_, fun hnone => ?_⟩
  · exact (exists_mistake_of_check hlist hf (hquiet _ hf)).1
  · exact hreported ⟨i, hi, Item.showsMistake_of_fails hmistake hfails⟩
  · have hcheck : check descriptors record = checkItems items record := by
      show ofExcept (Item.listOf descriptors) >>= _ = _
      rw [hlist]
      rfl
    cases h : (check descriptors record).result with
    | error f =>
      obtain ⟨⟨i, hi, hshown⟩, -⟩ := exists_mistake_of_check hlist h (hquiet f h)
      exact absurd hshown (hnone i hi)
    | ok o =>
      rw [hcheck] at h
      exact ⟨⟨o, rfl⟩, hcheck.trans (checkItems_onlyTexts h).symm⟩

/-! ## A mistake that is not shown -/

/-- A group with a number in it, behind a field. -/
def numbered : Value := .list [.list [.text "a", .int 5]]

/-- A record that has the field. -/
def fielded : Value := .dict [(.text "a", .int 1)]

theorem check_numbered : (check numbered (.dict [])).result = .error (.descriptorNotText "int") := rfl

theorem check_numbered_fielded : (check numbered fielded).result = .ok ⟨[]⟩ := rfl

theorem mistake_reported_iff_numbered :
    (∃ kind, (check numbered (.dict [])).result = .error (.descriptorNotText kind))
      ∧ check numbered fielded = checkItems [.group [.text "a"]] fielded := by
  have hlist : Item.listOf numbered = .ok [.group [.text "a", .int 5]] := rfl
  constructor
  · refine (mistake_reported_iff (.dict []) hlist ?_).2.1 (.group [.text "a", .int 5])
      (by simp) ⟨.int 5, by simp [Item.members], rfl⟩ ?_
    · intro f hf hdigits
      rw [check_numbered, Except.error.injEq] at hf
      subst hf
      cases hdigits
    · intro d hd hpass
      obtain rfl : d = "a" := by simpa [Item.members] using hd
      cases hpass
  · refine ((mistake_reported_iff fielded hlist ?_).2.2 ?_).2
    · simp [check_numbered_fielded]
    · have hfront : (Descriptor.isMet (.text "a") fielded).result = .ok true := rfl
      simp [Item.ShowsMistake, Item.members, isExposed_cons_iff, hfront, Value.isText]

/-- The same mistake is reported on one record and not on the other. Discovery, which
has no record, reports it. -/
theorem mistake_unreported_numbered :
    (check numbered (.dict [])).result = .error (.descriptorNotText "int")
      ∧ (check numbered fielded).result = .ok ⟨[]⟩
      ∧ (discover numbered).result = .error (.labelNotText 1 "int") :=
  ⟨check_numbered, check_numbered_fielded, rfl⟩

end FieldCheck
