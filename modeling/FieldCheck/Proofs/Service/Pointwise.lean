/-
FieldCheck.Proofs.Service.Pointwise — the records of a batch, one by one.

A batch looks at the age of the messages once for each record, and the first look may
replace them. Behind it the service `Rests`, so all records of a batch are judged by one
and the same service, and what is found about a record there (`judged`) depends on no
other record (`exists_look_of_batchList`).

Records that are picked from a batch, in any order and any number of times, therefore
have the results that they have in it (`batch_pointwise`).
-/
import Mathlib.Data.List.Forall2
import FieldCheck.Proofs.Service.FailedReload

namespace FieldCheck

open FieldCheck.Action

namespace Service

variable {s s' : Service} {w w' : World} {descriptors fields record : Value}
  {records : List Value} {results : List BatchResult}

/-! ## Records behind a look -/

/-- What is found about a record behind a look, with the messages of the service there. -/
def judged (s : Service) (descriptors fields record : Value) : Traced BatchResult := do
  let o ← FieldCheck.check descriptors record
  let id ← Traced.ofExcept (recordId fields record)
  let r ← s.engine.report o
  pure ⟨id, o, r⟩

/-- A record in a batch is judged by the service behind the look, which stays as it is. -/
theorem batchOne_of_look (hlook : look s w = (.ok (), s', w')) :
    batchOne descriptors fields record s w
      = ofTraced (judged s' descriptors fields record) s' w' := by
  rw [batchOne, check, bind_assoc, bind_of_ok _ hlook]
  refine ofTraced_bind (fun o v => ?_) w'
  rw [← ofTraced_ofExcept]
  refine ofTraced_bind (fun id v => ?_) v
  refine ofTraced_bind (fun r v => ?_) v
  have hend := ofTraced_ofExcept (σ := Service) (.ok (⟨id, o, r⟩ : BatchResult))
  exact (congrFun (congrFun hend s') v).symm

/-- A single check behind a look has the outcome with which the record is judged. -/
theorem check_of_look {b : BatchResult} (hlook : look s w = (.ok (), s', w'))
    (h : (judged s' descriptors fields record).result = .ok b) :
    ∃ v, check descriptors record s w = (.ok b.outcome, s', v) ∧ SameButLog v w' := by
  obtain ⟨o, houtcome, hnamed⟩ := Traced.of_result_bind h
  obtain ⟨id, -, hreported⟩ := Traced.of_result_bind hnamed
  obtain ⟨r, -, hresult⟩ := Traced.of_result_bind hreported
  cases hresult
  refine ⟨w'.logged (FieldCheck.check descriptors record).log, ?_, _, rfl⟩
  rw [check, bind_of_ok _ hlook, ofTraced, houtcome]

/-- The results are those of the records, each of them judged by the service. -/
def Judges (s : Service) (descriptors fields : Value) (records : List Value)
    (results : List BatchResult) : Prop :=
  List.Forall₂ (fun record b => (judged s descriptors fields record).result = .ok b) records results

/-- Records with results have them in a batch of a service that rests. Nothing changes
there but the log. -/
theorem Judges.batchList_eq (h : Judges s descriptors fields records results)
    (hrests : s.Rests w.clock) :
    ∃ v, batchList records descriptors fields s w = (.ok results, s, v) ∧ SameButLog v w := by
  induction h generalizing w with
  | nil => exact ⟨w, rfl, w.log, rfl⟩
  | @cons record b rest others hfirst _ ih =>
    have hone : batchOne descriptors fields record s w
        = ofTraced (judged s descriptors fields record) s w := batchOne_of_look (look_of_rests hrests)
    rw [ofTraced, hfirst] at hone
    obtain ⟨v, hothers, log, rfl⟩ := ih (w := w.logged (judged s descriptors fields record).log) hrests
    rw [batchList] at hothers
    refine ⟨_, ?_, log, rfl⟩
    rw [batchList, forEach, bind_of_ok _ hone, bind_of_ok _ hothers]
    rfl

/-- The results of such a batch are those of its records. -/
theorem judges_of_rests (hrests : s.Rests w.clock)
    (h : batchList records descriptors fields s w = (.ok results, s', w')) :
    Judges s descriptors fields records results := by
  induction records generalizing w results with
  | nil =>
    cases h
    exact .nil
  | cons record rest ih =>
    rw [batchList, forEach] at h
    obtain ⟨b, s₁, w₁, hone, hrest⟩ := of_bind_ok h
    obtain ⟨others, s₂, w₂, hothers, hend⟩ := of_bind_ok hrest
    cases hend
    rw [batchOne_of_look (look_of_rests hrests), ofTraced] at hone
    simp only [Prod.mk.injEq] at hone
    obtain ⟨hfirst, rfl, rfl⟩ := hone
    exact .cons hfirst (ih (w := w.logged (judged s descriptors fields record).log) hrests hothers)

theorem batch_list (records : List Value) (descriptors fields : Value) :
    batch (.list records) descriptors fields = batchList records descriptors fields := rfl

/-- A batch that is not empty goes on behind its first look as if it began there. -/
theorem batchList_behind_look (hs : IsConfigured s) (hlook : look s w = (.ok (), s', w'))
    (hne : records ≠ []) :
    batchList records descriptors fields s w = batchList records descriptors fields s' w' := by
  have hrests := rests_of_look hs hlook
  cases records with
  | nil => exact absurd rfl hne
  | cons record rest =>
    refine bind_of_eq _ ?_
    rw [batchOne_of_look hlook, batchOne_of_look (look_of_rests hrests)]

/-- Behind a batch that is not empty there is the service of its first look, which judges
the records, and the world of that look but for the log. -/
theorem exists_look_of_batchList (hs : IsConfigured s) (hne : records ≠ [])
    (h : batchList records descriptors fields s w = (.ok results, s', w')) :
    ∃ w₁, look s w = (.ok (), s', w₁) ∧ s'.Rests w₁.clock ∧ SameButLog w' w₁
      ∧ Judges s' descriptors fields records results := by
  obtain ⟨record, rest, rfl⟩ := List.exists_cons_of_ne_nil hne
  rcases hlook : look s w with ⟨f | u, s₁, w₁⟩
  · rw [batchList_of_look_error hlook] at h
    cases h
  · have hrests := rests_of_look hs hlook
    rw [batchList_behind_look hs hlook hne] at h
    have hjudges := judges_of_rests hrests h
    obtain ⟨v, hend, hlog⟩ := hjudges.batchList_eq hrests
    rw [hend] at h
    cases h
    exact ⟨w₁, rfl, hrests, hlog, hjudges⟩

/-! ## Picking records -/

section

variable {α β : Type}

/-- The elements at some places, in the order in which the places are named. Places
without an element are passed over. -/
def picked (places : List Nat) (xs : List α) : List α := places.filterMap fun i => xs[i]?

/-- Lists whose elements are related have related elements at each place. -/
theorem exists_related {R : α → β → Prop} {xs : List α} {ys : List β} (h : List.Forall₂ R xs ys)
    {i : Nat} {x : α} (hx : xs[i]? = some x) : ∃ y, ys[i]? = some y ∧ R x y := by
  obtain ⟨hi, rfl⟩ := List.getElem?_eq_some_iff.1 hx
  have hi' : i < ys.length := h.length_eq ▸ hi
  exact ⟨ys[i], List.getElem?_eq_getElem hi', h.get hi hi'⟩

theorem picked_related {R : α → β → Prop} {xs : List α} {ys : List β} (h : List.Forall₂ R xs ys)
    (places : List Nat) : List.Forall₂ R (picked places xs) (picked places ys) := by
  induction places with
  | nil => exact .nil
  | cons i places ih =>
    rw [picked, picked, List.filterMap_cons, List.filterMap_cons]
    cases hx : xs[i]? with
    | some x =>
      obtain ⟨y, hy, hxy⟩ := exists_related h hx
      rw [hy]
      exact .cons hxy ih
    | none =>
      rw [List.getElem?_eq_none_iff, h.length_eq] at hx
      rw [List.getElem?_eq_none hx]
      exact ih

end

/-- Each record of a batch has the result that it has in a batch of its own, with the
outcome of a single check. That batch and that check leave the same service behind, and
the same world but for the log. Records that are picked from the batch have the results
that are picked from its results. If they are any records at all, they leave the same
service and world behind as well. -/
theorem batch_pointwise (hs : Reachable s)
    (h : batch (.list records) descriptors fields s w = (.ok results, s', w')) :
    results.length = records.length
      ∧ (∀ (i : Nat) record, records[i]? = some record → ∃ b v, results[i]? = some b
        ∧ batch (.list [record]) descriptors fields s w = (.ok [b], s', v) ∧ SameButLog v w'
        ∧ ∃ v', check descriptors record s w = (.ok b.outcome, s', v') ∧ SameButLog v' w')
      ∧ ∀ places, ∃ s'' v, batch (.list (picked places records)) descriptors fields s w
          = (.ok (picked places results), s'', v)
        ∧ (picked places records ≠ [] → s'' = s' ∧ SameButLog v w') := by
  rw [batch_list] at h
  by_cases hne : records = []
  · subst hne
    cases h
    have hnone : ∀ {α : Type} (places : List Nat), picked places ([] : List α) = [] := by
      intro α places
      simp [picked]
    refine ⟨rfl, by simp, fun places => ?_⟩
    rw [hnone, hnone]
    exact ⟨s, w, rfl, fun hne => absurd rfl hne⟩
  obtain ⟨w₁, hlook, hrests, ⟨log, rfl⟩, hjudges⟩ := exists_look_of_batchList hs.isConfigured hne h
  -- Whatever is judged by the service behind the look has its results from `s` on, too.
  have hagain : ∀ {rs bs}, Judges s' descriptors fields rs bs → rs ≠ [] → ∃ v,
      batch (.list rs) descriptors fields s w = (.ok bs, s', v)
        ∧ SameButLog v { w₁ with log := log } := by
    intro rs bs hrs hne
    obtain ⟨v, hend, past, rfl⟩ := hrs.batchList_eq hrests
    refine ⟨{ w₁ with log := past }, ?_, past, rfl⟩
    rw [batch_list, batchList_behind_look hs.isConfigured hlook hne, hend]
  refine ⟨hjudges.length_eq.symm, fun i record hrecord => ?_, fun places => ?_⟩
  · obtain ⟨b, hb, hone⟩ := exists_related hjudges hrecord
    obtain ⟨v, hend, hlog⟩ := hagain (.cons hone .nil) (by simp)
    obtain ⟨v', hcheck, past, rfl⟩ := check_of_look hlook hone
    exact ⟨b, v, hb, hend, hlog, { w₁ with log := past }, hcheck, past, rfl⟩
  · by_cases hnone : picked places records = []
    · have hpicked := picked_related hjudges places
      rw [hnone, List.forall₂_nil_left_iff] at hpicked
      rw [hnone, hpicked]
      exact ⟨s, w, rfl, fun hne => absurd rfl hne⟩
    · obtain ⟨v, hend, hlog⟩ := hagain (picked_related hjudges places) hnone
      exact ⟨s', v, hend, fun _ => ⟨rfl, hlog⟩⟩

/-- A record with a name. -/
def named : Value := .dict [(.text "name", .text "x")]

def namedResult : BatchResult := ⟨"x", ⟨[]⟩, .ok⟩

def namelessResult : BatchResult :=
  ⟨unknownId, ⟨["name"]⟩, .error "The following fields are required or invalid: name"⟩

/-- A batch with a name and without one, at a time when its first look goes on to a reload. -/
theorem batch_named : ∃ s' w',
    batch (.list [named, .null]) (.list [.text "name"]) (.list [.text "name"]) shelved
        (shelf (.dict []) later) = (.ok [namedResult, namelessResult], s', w') := by
  have hreload : ∃ s' w', reload (shelved.looked later) ((shelf (.dict []) later).logged
      [⟨.info, .service, "Message catalog stale (2000s > 1800s), reloading"⟩]) = (.ok (), s', w')
      ∧ s'.engine = ⟨.catalog []⟩ := ⟨_, _, rfl, rfl⟩
  obtain ⟨s', w₁, hreload, hengine⟩ := hreload
  have hlook := (look_of_findsStale (findsStale_shelf (.dict []))).trans hreload
  have hs := reachable_shelved.isConfigured
  have hrests := rests_of_look hs hlook
  have hnamed : (judged s' (.list [.text "name"]) (.list [.text "name"]) named).result
      = .ok namedResult := by
    rw [judged, hengine]
    rfl
  have hnameless : (judged s' (.list [.text "name"]) (.list [.text "name"]) .null).result
      = .ok namelessResult := by
    rw [judged, hengine]
    rfl
  have hjudges : Judges s' (.list [.text "name"]) (.list [.text "name"]) [named, .null]
      [namedResult, namelessResult] := .cons hnamed (.cons hnameless .nil)
  obtain ⟨w', hend, -⟩ := hjudges.batchList_eq hrests
  refine ⟨s', w', ?_⟩
  rw [batch_list, batchList_behind_look hs hlook (by simp), hend]

/-- In a batch with the same records in another order, one of them twice, the results
are in that order, too. -/
theorem batch_pointwise_named : Reachable shelved
    ∧ (∃ s₀ w₀, FindsStale shelved (shelf (.dict []) later) s₀ w₀) ∧ ∃ s' w' v,
    batch (.list [named, .null]) (.list [.text "name"]) (.list [.text "name"]) shelved
        (shelf (.dict []) later) = (.ok [namedResult, namelessResult], s', w')
      ∧ batch (.list [.null, named, .null]) (.list [.text "name"]) (.list [.text "name"]) shelved
        (shelf (.dict []) later) = (.ok [namelessResult, namedResult, namelessResult], s', v)
      ∧ SameButLog v w' := by
  obtain ⟨s', w', hbatch⟩ := batch_named
  have hrecords : picked [1, 0, 1] [named, .null] = [.null, named, .null] := rfl
  have hresults : picked [1, 0, 1] [namedResult, namelessResult]
      = [namelessResult, namedResult, namelessResult] := rfl
  obtain ⟨-, -, hpicks⟩ := batch_pointwise reachable_shelved hbatch
  obtain ⟨s'', v, hpicked, hsame⟩ := hpicks [1, 0, 1]
  rw [hrecords] at hpicked hsame
  rw [hresults] at hpicked
  obtain ⟨rfl, hlog⟩ := hsame (by simp)
  exact ⟨reachable_shelved, ⟨_, _, findsStale_shelf _⟩, s'', w', v, hbatch, hpicked, hlog⟩

end Service

end FieldCheck
