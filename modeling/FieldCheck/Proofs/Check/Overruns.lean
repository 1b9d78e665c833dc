/-
FieldCheck.Proofs.Check.Overruns — numbers that are too long for a check.

What a record lacks is found by a check and is no fault. This holds for every value
at every place, with one exception: where a descriptor sets a bound for a whole
number, the number is written to see how long it is, and only so many digits can be
written. `Overruns` says when this happens. It depends on the value alone that the
path leads to. A floating-point number never has too many digits, a numeral is
written already, and without a bound nothing is written.

* `isMet_of_overruns`, `exists_isMet_of_not_overruns` — a descriptor that can be
  read is a fault in this case, and in all others it has the answer that its
  meaning gives.
* `check_unless_overrun` — so a check has an outcome exactly when no such
  descriptor is exposed in a group.
* `check_fails_of_overlong` — the failing check, with a field that is missing and goes
  unreported.
-/
import FieldCheck.Proofs.Check.Extension

namespace FieldCheck

open Value

variable {record : Value}

/-! ## Descriptors -/

namespace Descriptor

/-- The descriptor asks for a whole number within a bound, and leads to one of more
digits than can be written. -/
def Overruns (record : Value) (d : String) : Prop :=
  ∃ (r : Requirement) (n : Int), parse d = .ok r ∧ r.token = "int" ∧ r.maxLength ≠ none
    ∧ LeadsTo record r.path (.int n) ∧ 10 ^ Decimal.digitLimit ≤ n.natAbs

theorem isMet_of_overruns {d : String} (h : Overruns record d) :
    (isMet (.text d) record).result = .error .tooLongToWrite := by
  obtain ⟨r, n, hd, htoken, hbound, hleads, hn⟩ := h
  have htype : r.type = .integer := by
    rw [(isCanonical_of_parse hd).type_eq, htoken]
    rfl
  have hpresent : (Value.int n).isPresent = true := by simp [isPresent, isNumeric]
  have hlong : Decimal.isWritable n = false := by simpa [Decimal.isWritable] using hn
  obtain ⟨k, hk⟩ := Option.ne_none_iff_exists'.1 hbound
  rw [result_isMet_text, hd]
  show r.isMet record = _
  rw [Requirement.isMet, resolve_eq_some_iff.2 hleads, Requirement.isMetBy, htype, hk, hpresent]
  simp [FieldType.accepts, isIntegerValued, FieldType.integerWithin, integerLength, decimalLength,
    hlong, Except.map]

/-- A descriptor that can be read has an answer on every other record, and the
answer is what the descriptor means. -/
theorem exists_isMet_of_not_overruns {d : String} {r : Requirement} {bound : Option Nat}
    (hd : parse d = .ok r) (hbound : r.maxLength = bound.map Nat.cast)
    (h : ¬ Overruns record d) :
    ∃ met, (isMet (.text d) record).result = .ok met
      ∧ (met = true ↔ ∃ v, LeadsTo record r.path v ∧ (r.truthy = true → ¬ v.IsAbsent)
        ∧ Fits r.token bound v) := by
  rw [result_isMet_text, hd]
  refine Requirement.isMet_iff_of_isMeasurable (isCanonical_of_parse hd).type_eq hbound ?_
  intro hint v hleads n hv
  subst hv
  by_cases hnone : bound = none
  · exact .inl hnone
  · refine .inr (decide_eq_true (Nat.lt_of_not_le fun hn => h ?_))
    exact ⟨r, n, hd, hint, by simpa [hbound] using hnone, hleads, hn⟩

theorem passes_iff {d : String} {r : Requirement} {bound : Option Nat} (hd : parse d = .ok r)
    (hbound : r.maxLength = bound.map Nat.cast) :
    Passes record d ↔ ¬ Overruns record d ∧ ∃ v, LeadsTo record r.path v
      ∧ (r.truthy = true → ¬ v.IsAbsent) ∧ Fits r.token bound v := by
  rw [Passes]
  by_cases hover : Overruns record d
  · simp [isMet_of_overruns hover, hover]
  · obtain ⟨met, hmet, hiff⟩ := exists_isMet_of_not_overruns hd hbound hover
    simp [hmet, hover, hiff]

theorem isMet_eq_error_iff {d : String} {r : Requirement} (hd : parse d = .ok r) {f : Fault} :
    (isMet (.text d) record).result = .error f
      ↔ Overruns record d ∧ f = .tooLongToWrite := by
  by_cases hover : Overruns record d
  · simp [isMet_of_overruns hover, hover, eq_comm]
  · obtain ⟨bound, hbound, -⟩ := (isCanonical_of_parse hd).exists_bound
    obtain ⟨met, hmet, -⟩ := exists_isMet_of_not_overruns hd hbound hover
    simp [hmet, hover]

end Descriptor

/-! ## Checks -/

open Descriptor

namespace TextItem

/-- A member of the item overruns, and the record passes none in front of it. -/
def Overruns (record : Value) (i : TextItem) : Prop :=
  ∃ before d after, i.members = before ++ d :: after ∧ Descriptor.Overruns record d
    ∧ ∀ e ∈ before, ¬ Passes record e

theorem isExposed_isFault_iff {i : TextItem} (h : i.IsReadable) :
    IsExposed record (IsFault record) (Item.ofValue i.toValue).members ↔ i.Overruns record := by
  rw [members_ofValue, isExposed_map_text_iff]
  refine exists_congr fun before => exists₂_congr fun d after => ?_
  refine and_congr_right fun hmembers => and_congr_left fun _ => ?_
  obtain ⟨r, hr⟩ := h d (by simp [hmembers])
  simp [IsFault, isMet_eq_error_iff hr]

end TextItem

/-- A check of items that can be read has an outcome unless a number in the record
is too long for a bound; then it fails for just that. The outcome lists every item
that fails, whatever the values are because of which it does. -/
theorem check_unless_overrun {descriptors : Value} {items : List TextItem} (record : Value)
    (hitems : Lists descriptors items) (hread : ∀ i ∈ items, i.IsReadable) :
    ((∃ o, (check descriptors record).result = .ok o) ↔ ∀ i ∈ items, ¬ i.Overruns record)
    ∧ (∀ o, (check descriptors record).result = .ok o →
        o.labels = (items.filter (·.Fails record)).map TextItem.label)
    ∧ (∀ f, (check descriptors record).result = .error f → f = .tooLongToWrite)
    ∧ ∀ (d : String) (r : Requirement) (bound : Option Nat), parse d = .ok r →
        r.maxLength = bound.map Nat.cast →
        (Passes record d ↔ ¬ Descriptor.Overruns record d ∧ ∃ v, LeadsTo record r.path v
          ∧ (r.truthy = true → ¬ v.IsAbsent) ∧ Fits r.token bound v) := by
  refine ⟨?_, fun o ho => labels_of_check hitems ho, fun f hf => ?_,
    fun d r bound hd hbound => passes_iff hd hbound⟩
  · rw [exists_check_iff hitems.listOf_eq, List.forall_mem_map, List.forall_mem_map]
    exact forall₂_congr fun i hi => not_congr (TextItem.isExposed_isFault_iff (hread i hi))
  · obtain ⟨_, hmem, hexposed⟩ := exists_isExposed_of_check hitems.listOf_eq hf
    simp only [List.map_map, List.mem_map, Function.comp_apply] at hmem
    obtain ⟨i, hi, rfl⟩ := hmem
    rw [TextItem.members_ofValue, isExposed_map_text_iff] at hexposed
    obtain ⟨before, d, after, hmembers, hfault, -⟩ := hexposed
    obtain ⟨r, hr⟩ := hread i hi d (by simp [hmembers])
    exact ((isMet_eq_error_iff hr).1 hfault).2

/-! ## A number that is too long -/

/-- A record with a number, and with a list that holds the number. -/
def holding (n : Int) : Value := .dict [(.text "a", .int n), (.text "b", .list [.int n])]

theorem overruns_holding {n : Int} (h : 10 ^ Decimal.digitLimit ≤ n.natAbs) :
    Overruns (holding n) "(int@5)a" :=
  ⟨⟨false, .integer, some 5, ["a"], "int", []⟩, n, rfl, rfl, by simp, resolve_eq_some_iff.1 rfl, h⟩

theorem check_holding {n : Int} (h : 10 ^ Decimal.digitLimit ≤ n.natAbs) :
    (check (.list [.text "(int@5)a", .text "c"]) (holding n)).result
      = .error .tooLongToWrite := by
  have hitem : ((Item.single (.text "(int@5)a")).failure (holding n)).result
      = .error .tooLongToWrite :=
    Item.failure_eq_error_iff.2 (anyMet_cons_error [] (isMet_of_overruns (overruns_holding h)))
  have hlist : Item.listOf (.list [.text "(int@5)a", .text "c"])
      = .ok [.single (.text "(int@5)a"), .single (.text "c")] := rfl
  rw [result_check_of_listOf hlist, failures, Traced.result_bind_error _ hitem]
  rfl

/-- The least number that is too long to be written. -/
def overlong : Int := (10 ^ Decimal.digitLimit : Nat)

theorem le_natAbs_overlong : 10 ^ Decimal.digitLimit ≤ overlong.natAbs := by
  rw [overlong, Int.natAbs_natCast]

/-- Descriptors of the fields that do not ask how long the number is, one of them
because the member in front of it is passed. -/
def unmeasuredItems : List TextItem := [.single "(int)a", .tuple ["(int@5)b", "a", "(int@5)a"]]

/-- The same with one that asks. -/
def measuredItems : List TextItem := unmeasuredItems ++ [.single "(int@5)a"]

theorem isReadable_measuredItems : ∀ i ∈ measuredItems, i.IsReadable := by
  have hall : ∀ d ∈ ["(int)a", "(int@5)b", "a", "(int@5)a"], ∃ r, parse d = .ok r := by
    simp only [List.forall_mem_cons]
    exact ⟨⟨_, rfl⟩, ⟨_, rfl⟩, ⟨_, rfl⟩, ⟨_, rfl⟩, by simp⟩
  intro i hi d hd
  refine hall d ?_
  simp only [measuredItems, unmeasuredItems, List.cons_append, List.nil_append, List.mem_cons,
    List.not_mem_nil, or_false] at hi
  rcases hi with rfl | rfl | rfl <;> simp_all [TextItem.members]

theorem not_overruns_unmeasuredItems (n : Int) :
    ∀ i ∈ unmeasuredItems, ¬ i.Overruns (holding n) := by
  have hplain : (isMet (.text "(int)a") (holding n)).result = .ok true := by
    have h : parse "(int)a" = .ok ⟨false, .integer, none, ["a"], "int", []⟩ := rfl
    rw [result_isMet_text, h]
    rfl
  have hlist : (isMet (.text "(int@5)b") (holding n)).result = .ok false := by
    have h : parse "(int@5)b" = .ok ⟨false, .integer, some 5, ["b"], "int", []⟩ := rfl
    rw [result_isMet_text, h]
    rfl
  have hfront : (isMet (.text "a") (holding n)).result = .ok true := by
    have h : parse "a" = .ok ⟨false, .any, none, ["a"], "", []⟩ := rfl
    rw [result_isMet_text, h]
    rfl
  intro i hi
  rw [← TextItem.isExposed_isFault_iff (isReadable_measuredItems i (List.mem_append_left _ hi)),
    TextItem.members_ofValue]
  simp only [unmeasuredItems, List.mem_cons, List.not_mem_nil, or_false] at hi
  rcases hi with rfl | rfl
  · simp [TextItem.members, isExposed_cons_iff, not_isExposed_nil, IsFault, hplain]
  · simp [TextItem.members, isExposed_cons_iff, IsFault, hlist, hfront]

theorem check_unless_overrun_measured :
    Lists (.list (measuredItems.map TextItem.toValue)) measuredItems
      ∧ (∀ i ∈ measuredItems, i.IsReadable)
      ∧ (∃ o, (check (.list (unmeasuredItems.map TextItem.toValue)) (holding overlong)).result
        = .ok o)
      ∧ (check (.list (measuredItems.map TextItem.toValue)) (holding overlong)).result
        = .error .tooLongToWrite := by
  have hunmeasured := check_unless_overrun (holding overlong) (lists_list unmeasuredItems)
    fun i hi => isReadable_measuredItems i (List.mem_append_left _ hi)
  have hmeasured := check_unless_overrun (holding overlong) (lists_list measuredItems)
    isReadable_measuredItems
  refine ⟨lists_list _, isReadable_measuredItems,
    hunmeasured.1.2 (not_overruns_unmeasuredItems overlong), ?_⟩
  cases hcheck : (check (.list (measuredItems.map TextItem.toValue)) (holding overlong)).result with
  | error f => rw [hmeasured.2.2.1 f hcheck]
  | ok o =>
    have hnone := hmeasured.1.1 ⟨o, hcheck⟩ (.single "(int@5)a") (by simp [measuredItems])
    exact absurd ⟨[], "(int@5)a", [], rfl, overruns_holding le_natAbs_overlong, by simp⟩ hnone

/-- A field that breaks its bound is not always data. With a number that is too long
a check fails, and the field that is missing is not reported either. -/
theorem check_fails_of_overlong :
    (check (.list [.text "(int@5)a", .text "c"]) (holding overlong)).result
      = .error .tooLongToWrite :=
  check_holding le_natAbs_overlong

end FieldCheck
