/-
FieldCheck.Proofs.Check.Trace — which descriptors a check tries, and in which order.

An outcome does not tell how it was found. A check that tried a descriptor twice, or went on
behind a member that is met, would list the same labels. So `checkBy` is a check with
another evaluator put in its place, and with `Descriptor.isMetBy` the evaluator is put
together from another reader of descriptors and another judge of requirements. Where these
give the same results they may log what they want, and with that everything they are asked
can be seen.

What they are asked is a list that is known beforehand: of each item the members up to and
including the first that is passed, all of them if there is none (`TextItem.tried`). The
induction is on the members of an item, and then on the items. Each step says what is logged
if there is a result, for nothing is known about the descriptors that a fault leaves out.

* `checkBy_isMet` — with its own evaluator, it is the check.
* `log_checkBy` — an evaluator is asked about what is tried, in order and with
  repetitions, and about nothing else.
* `check_tries` — so are the reader and the judge, and the log of a check has one record
  for each descriptor in that list that has notes, and one on the failed items.
-/
import FieldCheck.Proofs.Check.Aggregation

namespace FieldCheck

open Traced

/-! ## Checks with an evaluator -/

/-- One of the descriptors is met, by an evaluator. -/
def anyMetBy (evaluate : Value → Traced Bool) : List Value → Traced Bool
  | [] => pure false
  | d :: rest => do
    if ← evaluate d then pure true else anyMetBy evaluate rest

/-- The label of an item that fails, by an evaluator. -/
def Item.failureBy (evaluate : Value → Traced Bool) (item : Item) : Traced (Option String) := do
  if ← anyMetBy evaluate item.members then pure none
  else
    let label ← Traced.ofExcept item.label
    pure (some label)

/-- The labels of the items that fail, by an evaluator. -/
def failuresBy (evaluate : Value → Traced Bool) : List Item → Traced (List String)
  | [] => pure []
  | item :: rest => do
    let first ← item.failureBy evaluate
    let others ← failuresBy evaluate rest
    pure (first.toList ++ others)

/-- The check of a list of descriptors by an evaluator. -/
def checkBy (evaluate : Value → Traced Bool) (descriptors : Value) : Traced Outcome := do
  let items ← Traced.ofExcept (Item.listOf descriptors)
  let labels ← failuresBy evaluate items
  let o : Outcome := ⟨labels⟩
  Traced.writeAll o.log
  pure o

/-- The evaluator that is made of a reader of descriptors and a judge of requirements. -/
def Descriptor.isMetBy (read : Value → Traced Requirement) (judge : Requirement → Traced Bool)
    (descriptor : Value) : Traced Bool := do
  let r ← read descriptor
  judge r

theorem Descriptor.isMetBy_parseValue (record : Value) :
    isMetBy parseValue (fun r => ofExcept (r.isMet record)) = (isMet · record) := rfl

variable {record : Value}

theorem anyMetBy_isMet (vs : List Value) :
    anyMetBy (Descriptor.isMet · record) vs = anyMet vs record := by
  induction vs with
  | nil => rfl
  | cons v rest ih => rw [anyMetBy, anyMet, ih]

theorem failureBy_isMet (i : Item) :
    i.failureBy (Descriptor.isMet · record) = i.failure record := by
  rw [Item.failureBy, Item.failure, anyMetBy_isMet]

theorem failuresBy_isMet (items : List Item) :
    failuresBy (Descriptor.isMet · record) items = failures items record := by
  induction items with
  | nil => rfl
  | cons i rest ih => rw [failuresBy, failures, failureBy_isMet, ih]

theorem checkBy_isMet (descriptors : Value) :
    checkBy (Descriptor.isMet · record) descriptors = check descriptors record := by
  simp only [checkBy, check, checkItems, failuresBy_isMet]

/-! ## The same results -/

/-- The evaluator has the answers that the record gives. -/
def Answers (evaluate : Value → Traced Bool) (record : Value) : Prop :=
  ∀ v, (evaluate v).result = (Descriptor.isMet v record).result

theorem answers_isMetBy {read : Value → Traced Requirement} {judge : Requirement → Traced Bool}
    (hread : ∀ v, (read v).result = (Descriptor.parseValue v).result)
    (hjudge : ∀ r, (judge r).result = r.isMet record) :
    Answers (Descriptor.isMetBy read judge) record :=
  fun v => result_bind_congr (hread v) fun r _ => hjudge r

variable {evaluate : Value → Traced Bool}

theorem Answers.anyMetBy (h : Answers evaluate record) (vs : List Value) :
    (anyMetBy evaluate vs).result = (anyMet vs record).result := by
  induction vs with
  | nil => rfl
  | cons v rest ih =>
    refine result_bind_congr (h v) fun met _ => ?_
    cases met with
    | true => rfl
    | false => exact ih

theorem Answers.failureBy (h : Answers evaluate record) (i : Item) :
    (i.failureBy evaluate).result = (i.failure record).result :=
  result_bind_congr (h.anyMetBy i.members) fun _ _ => rfl

theorem Answers.failuresBy (h : Answers evaluate record) (items : List Item) :
    (failuresBy evaluate items).result = (failures items record).result := by
  induction items with
  | nil => rfl
  | cons i rest ih =>
    exact result_bind_congr (h.failureBy i) fun _ _ => result_bind_congr ih fun _ _ => rfl

theorem Answers.checkBy (h : Answers evaluate record) (descriptors : Value) :
    (checkBy evaluate descriptors).result = (check descriptors record).result :=
  result_bind_congr rfl fun items _ => result_bind_congr (h.failuresBy items) fun _ _ => rfl

/-! ## What is tried -/

/-- The descriptors up to and including the first that is passed, or all of them. -/
def upToPassed (record : Value) (ds : List String) : List String :=
  ds.takeWhile (¬ Passes record ·) ++ (ds.find? (Passes record ·)).toList

theorem upToPassed_cons_of_passes {d : String} (rest : List String) (h : Passes record d) :
    upToPassed record (d :: rest) = [d] := by
  simp [upToPassed, h]

theorem upToPassed_cons_of_not_passes {d : String} (rest : List String)
    (h : ¬ Passes record d) : upToPassed record (d :: rest) = d :: upToPassed record rest := by
  simp [upToPassed, h]

namespace TextItem

/-- The descriptors of an item that are tried: a descriptor on its own, and of a group
the members up to and including the first that is passed. -/
def tried (record : Value) : TextItem → List String
  | single d => [d]
  | list ds => upToPassed record ds
  | tuple ds => upToPassed record ds

theorem tried_eq (i : TextItem) : i.tried record = upToPassed record i.members := by
  cases i with
  | single d => by_cases h : Passes record d <;> simp [tried, members, upToPassed, h]
  | list ds => rfl
  | tuple ds => rfl

end TextItem

/-- The descriptors that are tried, item after item. -/
def tries (record : Value) (items : List TextItem) : List String :=
  items.flatMap (TextItem.tried record)

/-- A search with an answer has one for each descriptor that it tries. -/
theorem exists_isMet_of_upToPassed {ds : List String} {met : Bool}
    (h : (anyMet (ds.map .text) record).result = .ok met) :
    ∀ d ∈ upToPassed record ds, ∃ a, (Descriptor.isMet (.text d) record).result = .ok a := by
  induction ds with
  | nil => simp [upToPassed]
  | cons d rest ih =>
    rcases anyMet_cons_eq_ok h with ⟨hd, -⟩ | ⟨hd, hrest⟩
    · rw [upToPassed_cons_of_passes rest hd]
      exact List.forall_mem_singleton.2 ⟨true, hd⟩
    · rw [upToPassed_cons_of_not_passes rest (by simp [Passes, hd])]
      exact List.forall_mem_cons.2 ⟨⟨false, hd⟩, ih hrest⟩

theorem anyMet_of_failure {i : TextItem} {a : Option String}
    (h : ((Item.ofValue i.toValue).failure record).result = .ok a) :
    ∃ met, (anyMet (i.members.map .text) record).result = .ok met := by
  obtain ⟨met, hmet, -⟩ := of_result_bind h
  exact ⟨met, by rwa [TextItem.members_ofValue] at hmet⟩

/-- Each descriptor that is tried can be read, if there is an outcome. -/
theorem exists_parse_of_tries {items : List TextItem} {labels : List String}
    (h : (failures ((items.map TextItem.toValue).map Item.ofValue) record).result = .ok labels) :
    ∀ d ∈ tries record items, ∃ r, Descriptor.parse d = .ok r := by
  intro d hd
  obtain ⟨i, hi, hd⟩ := List.mem_flatMap.1 hd
  obtain ⟨a, ha⟩ := exists_failure_of_failures h _
    (List.mem_map_of_mem (List.mem_map_of_mem hi))
  obtain ⟨met, hmet⟩ := anyMet_of_failure ha
  rw [TextItem.tried_eq] at hd
  obtain ⟨b, hb⟩ := exists_isMet_of_upToPassed hmet d hd
  obtain ⟨r, hr, -⟩ := of_result_bind hb
  exact ⟨r, (Descriptor.result_parseLogged d).symm.trans hr⟩

/-! ## What is logged -/

theorem log_anyMetBy (heval : Answers evaluate record) {ds : List String} {met : Bool}
    (h : (anyMet (ds.map .text) record).result = .ok met) :
    (anyMetBy evaluate (ds.map .text)).log
      = (upToPassed record ds).flatMap fun d => (evaluate (.text d)).log := by
  induction ds with
  | nil => rfl
  | cons d rest ih =>
    rw [List.map_cons, anyMetBy]
    rcases anyMet_cons_eq_ok h with ⟨hd, -⟩ | ⟨hd, hrest⟩
    · rw [log_bind_ok _ ((heval _).trans hd), upToPassed_cons_of_passes rest hd]
      simp
    · rw [log_bind_ok _ ((heval _).trans hd),
        upToPassed_cons_of_not_passes rest (by simp [Passes, hd]), List.flatMap_cons, ← ih hrest]
      rfl

theorem log_failureBy (heval : Answers evaluate record) {i : TextItem} {a : Option String}
    (h : ((Item.ofValue i.toValue).failure record).result = .ok a) :
    ((Item.ofValue i.toValue).failureBy evaluate).log
      = (i.tried record).flatMap fun d => (evaluate (.text d)).log := by
  obtain ⟨met, hmet⟩ := anyMet_of_failure h
  have hresult := (heval.anyMetBy (i.members.map .text)).trans hmet
  rw [Item.failureBy, TextItem.members_ofValue, TextItem.label_ofValue, log_bind_ok _ hresult,
    log_anyMetBy heval hmet, TextItem.tried_eq]
  -- To take the label of an item is not logged.
  cases met <;> exact List.append_nil _

theorem log_failuresBy (heval : Answers evaluate record) {items : List TextItem}
    {labels : List String}
    (h : (failures ((items.map TextItem.toValue).map Item.ofValue) record).result = .ok labels) :
    (failuresBy evaluate ((items.map TextItem.toValue).map Item.ofValue)).log
      = (tries record items).flatMap fun d => (evaluate (.text d)).log := by
  induction items generalizing labels with
  | nil => rfl
  | cons i rest ih =>
    obtain ⟨first, hfirst, h⟩ := of_result_bind h
    obtain ⟨others, hothers, -⟩ := of_result_bind h
    rw [List.map_cons, List.map_cons, failuresBy,
      log_bind_ok _ ((heval.failureBy _).trans hfirst),
      log_bind_ok _ ((heval.failuresBy _).trans hothers), log_failureBy heval hfirst, ih hothers,
      log_pure, List.append_nil, tries, tries, List.flatMap_cons, List.flatMap_append]

/-- An evaluator is asked about the descriptors that are tried, in their order. -/
theorem log_checkBy (heval : Answers evaluate record) {descriptors : Value}
    {items : List TextItem} {o : Outcome} (hitems : Lists descriptors items)
    (h : (check descriptors record).result = .ok o) :
    (checkBy evaluate descriptors).log
      = (tries record items).flatMap (fun d => (evaluate (.text d)).log) ++ o.log := by
  have hlabels := failures_of_check hitems.listOf_eq h
  have hlist : (ofExcept (Item.listOf descriptors)).result = _ := hitems.listOf_eq
  have hlogged : (ofExcept (Item.listOf descriptors)).log = [] := rfl
  rw [checkBy, log_bind_ok _ hlist, log_bind_ok _ ((heval.failuresBy _).trans hlabels),
    log_failuresBy heval hlabels, hlogged, List.nil_append]
  exact congrArg _ (List.append_nil o.log)

theorem log_isMetBy {read : Value → Traced Requirement} (judge : Requirement → Traced Bool)
    {d : String} {r : Requirement}
    (hread : (read (.text d)).result = (Descriptor.parseValue (.text d)).result)
    (hd : Descriptor.parse d = .ok r) :
    (Descriptor.isMetBy read judge (.text d)).log = (read (.text d)).log ++ (judge r).log :=
  log_bind_ok _ (hread.trans ((Descriptor.result_parseLogged d).trans hd))

theorem log_isMet_text {d : String} {r : Requirement} (hd : Descriptor.parse d = .ok r) :
    (Descriptor.isMet (.text d) record).log = r.log d := by
  have hlog : (Descriptor.parseValue (.text d)).log = r.log d := by
    simp only [Descriptor.parseValue, Descriptor.parseLogged, hd]
  rw [← hlog]
  exact (log_isMetBy _ rfl hd).trans (List.append_nil _)

theorem flatMap_log (ds : List String) (requirement : String → Requirement) :
    ds.flatMap (fun d => (requirement d).log d)
      = (ds.filter fun d => (requirement d).notes ≠ []).map
        fun d => (requirement d).degradedRecord d := by
  induction ds with
  | nil => rfl
  | cons d rest ih =>
    rw [List.flatMap_cons, ih]
    by_cases h : (requirement d).notes = [] <;> simp [Requirement.log, h]

/-- The last record of a check tells the number of items that fail, if there are any. -/
theorem log_of_labels {o : Outcome} {items : List TextItem}
    (h : o.labels = (items.filter (·.Fails record)).map TextItem.label) :
    o.log = if items.countP (·.Fails record) = 0 then []
      else [failedRecord (items.countP (·.Fails record))] := by
  have hcount : o.labels.length = items.countP (·.Fails record) := by
    rw [h, List.length_map, List.countP_eq_length_filter]
  have hgood : o.isOk = true ↔ items.countP (·.Fails record) = 0 := by
    rw [Outcome.isOk_iff, ← hcount, List.length_eq_zero_iff]
  rw [Outcome.log, hcount]
  simp only [hgood]

/-- If a check has an outcome, it reads and judges exactly the descriptors that are tried,
one after the other: of each item those up to and including the first that is passed. What
it logs is one record for each of them that has notes, in the same order and as often,
and after that one on the number of failed items, unless none failed. -/
theorem check_tries {descriptors : Value} {items : List TextItem} {o : Outcome}
    (hitems : Lists descriptors items) (h : (check descriptors record).result = .ok o) :
    ∃ requirement : String → Requirement,
      (∀ d ∈ tries record items, Descriptor.parse d = .ok (requirement d))
      ∧ checkBy (Descriptor.isMetBy Descriptor.parseValue fun r => ofExcept (r.isMet record))
          descriptors = check descriptors record
      ∧ (∀ (read : Value → Traced Requirement) (judge : Requirement → Traced Bool),
          (∀ v, (read v).result = (Descriptor.parseValue v).result) →
          (∀ r, (judge r).result = r.isMet record) →
          (checkBy (Descriptor.isMetBy read judge) descriptors).result = .ok o
          ∧ (checkBy (Descriptor.isMetBy read judge) descriptors).log
            = (tries record items).flatMap
                (fun d => (read (.text d)).log ++ (judge (requirement d)).log) ++ o.log)
      ∧ (check descriptors record).log
        = (((tries record items).filter fun d => (requirement d).notes ≠ []).map
            fun d => (requirement d).degradedRecord d)
          ++ if items.countP (·.Fails record) = 0 then []
            else [failedRecord (items.countP (·.Fails record))] := by
  have hparse := exists_parse_of_tries (failures_of_check hitems.listOf_eq h)
  have : Nonempty Requirement := ⟨⟨false, .any, none, [], "", []⟩⟩
  choose! requirement hrequirement using hparse
  refine ⟨requirement, hrequirement, ?_, fun read judge hread hjudge => ?_, ?_⟩
  · rw [Descriptor.isMetBy_parseValue, checkBy_isMet]
  · have heval := answers_isMetBy hread hjudge
    refine ⟨(heval.checkBy descriptors).trans h, ?_⟩
    rw [log_checkBy heval hitems h]
    refine congrArg (· ++ o.log) (List.flatMap_congr fun d hd => ?_)
    exact log_isMetBy judge (hread _) (hrequirement d hd)
  · have heval : Answers (Descriptor.isMet · record) record := fun _ => rfl
    rw [← checkBy_isMet, log_checkBy heval hitems h, log_of_labels (labels_of_check hitems h),
      ← flatMap_log]
    exact congrArg (· ++ _) (List.flatMap_congr fun d hd => log_isMet_text (hrequirement d hd))

/-- Items with descriptors that are not understood in full. The last member of the first
group is not tried, and the first one is tried again in the second group. -/
def notedItems : List TextItem :=
  [.single "(strng)b", .list ["(int@x)name", "*b", "(strng)b"], .tuple ["(int@x)name", "name"],
    .list []]

/-- What two of the descriptors stand for. -/
def misspelt : Requirement := ⟨false, .unknown, none, ["b"], "strng", [.unknownType "strng"]⟩

def unmeasured : Requirement := ⟨false, .integer, none, ["name"], "int", [.invalidLength "x"]⟩

theorem parse_misspelt : Descriptor.parse "(strng)b" = .ok misspelt := rfl

theorem parse_unmeasured : Descriptor.parse "(int@x)name" = .ok unmeasured := rfl

theorem isMet_misspelt : (Descriptor.isMet (.text "(strng)b") sparse).result = .ok true := by
  rw [Descriptor.result_isMet_text, parse_misspelt]
  rfl

theorem isMet_unmeasured : (Descriptor.isMet (.text "(int@x)name") sparse).result = .ok false := by
  rw [Descriptor.result_isMet_text, parse_unmeasured]
  rfl

theorem check_tries_noted :
    Lists (.list (notedItems.map TextItem.toValue)) notedItems
      ∧ (check (.list (notedItems.map TextItem.toValue)) sparse).result
        = .ok ⟨["(int@x)name or name", ""]⟩
      ∧ tries sparse notedItems = ["(strng)b", "(int@x)name", "*b", "(int@x)name", "name"]
      ∧ (check (.list (notedItems.map TextItem.toValue)) sparse).log
        = [misspelt.degradedRecord "(strng)b", unmeasured.degradedRecord "(int@x)name",
          unmeasured.degradedRecord "(int@x)name", failedRecord 2] := by
  have hitems : Lists (.list (notedItems.map TextItem.toValue)) notedItems := rfl
  have hrecord : ∀ i ∈ notedItems, i.Evaluable sparse := by
    simp [notedItems, TextItem.Evaluable, TextItem.members, isMet_name_sparse, isMet_b_sparse,
      isMet_misspelt, isMet_unmeasured]
  have hfails : notedItems.filter (·.Fails sparse) = [.tuple ["(int@x)name", "name"], .list []] := by
    simp [notedItems, TextItem.Fails, TextItem.members, Passes, isMet_name_sparse, isMet_b_sparse,
      isMet_misspelt, isMet_unmeasured]
  have h := result_check hitems hrecord
  have htries : tries sparse notedItems
      = ["(strng)b", "(int@x)name", "*b", "(int@x)name", "name"] := by
    simp [notedItems, tries, TextItem.tried, upToPassed, Passes, isMet_name_sparse,
      isMet_b_sparse, isMet_unmeasured]
  obtain ⟨requirement, hparse, -, -, hlog⟩ := check_tries hitems h
  rw [htries] at hparse hlog
  refine ⟨hitems, ?_, htries, ?_⟩
  · rw [h, hfails]
    simp [TextItem.label]
  · have hmisspelt : requirement "(strng)b" = misspelt :=
      Except.ok.inj ((hparse _ (by simp)).symm.trans parse_misspelt)
    have hunmeasured : requirement "(int@x)name" = unmeasured :=
      Except.ok.inj ((hparse _ (by simp)).symm.trans parse_unmeasured)
    have hb : requirement "*b" = ⟨true, .any, none, ["b"], "", []⟩ :=
      Except.ok.inj ((hparse _ (by simp)).symm.trans rfl)
    have hname : requirement "name" = ⟨false, .any, none, ["name"], "", []⟩ :=
      Except.ok.inj ((hparse _ (by simp)).symm.trans rfl)
    rw [hlog, List.countP_eq_length_filter, hfails]
    simp [hmisspelt, hunmeasured, hb, hname, misspelt, unmeasured]

end FieldCheck
