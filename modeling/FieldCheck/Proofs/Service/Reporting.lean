/-
FieldCheck.Proofs.Service.Reporting — services that can report.

A report has a message in front, and the message has to be a text. The messages
of a service are those that it was given, or those of a catalog, and its engine
makes reports with the same ones. A reload replaces both, and no call does
anything else to them, so this is true of every reachable service
(`Reachable.hasSource`).

A catalog always has a text for a report. A source that was given may hold any
value under that key. So a report is a fault only for a service with a source of
its own (`exists_front`).
-/
import FieldCheck.Proofs.Service.Looking

namespace FieldCheck

open FieldCheck.Action

namespace Service

variable {s s' : Service} {w w' : World}

/-! ## Where the messages come from -/

/-- The messages are the ones that were given, or those of a catalog, and the
engine has the same ones. -/
structure HasSource (s : Service) : Prop where
  given : ∀ m ∈ s.injected, s.messages = m
  loaded : s.injected = none → ∃ texts, s.messages = .catalog texts
  shared : s.engine.messages = s.messages

theorem HasSource.of_eq (h : HasSource s) (hinjected : s'.injected = s.injected)
    (hmessages : s'.messages = s.messages) (hengine : s'.engine = s.engine) : HasSource s' :=
  ⟨by rw [hinjected, hmessages]; exact h.given, by rw [hinjected, hmessages]; exact h.loaded,
    by rw [hengine, hmessages]; exact h.shared⟩

/-- Messages that a service got are those of its source. Where it got none, it
keeps those that it had. -/
theorem hasSource_of_prepare {r : Except Fault Unit} (h : prepare s w = (r, s', w'))
    (hsource : r = .ok () ∨ HasSource s) : HasSource s' := by
  cases hs : s.injected with
  | some m =>
    rw [prepare, state_bind, hs] at h
    cases h
    exact ⟨by simp [hs], by simp [hs], rfl⟩
  | none =>
    obtain ⟨v, -, ⟨-, f, hp⟩ | ⟨-, f, hp⟩ | ⟨-, texts, hp⟩⟩ := prepare_cases hs w
    · rw [hp] at h
      cases h
      exact hsource.resolve_left (by simp)
    · rw [hp] at h
      cases h
      exact (hsource.resolve_left (by simp)).of_eq rfl rfl rfl
    · rw [hp] at h
      cases h
      exact ⟨by simp [renewed, noted, hs], fun _ => ⟨texts, rfl⟩, rfl⟩

theorem HasSource.reload (h : HasSource s) (w : World) : HasSource (reload s w).2.1 := by
  rw [state_reload]
  exact hasSource_of_prepare rfl (.inr h)

theorem HasSource.look (h : HasSource s) (w : World) : HasSource (look s w).2.1 := by
  rcases look_cases s w with ⟨s₀, w₀, hstale⟩ | ⟨f, hlook⟩ | ⟨hlook, -⟩ | ⟨hlook, -⟩
  · obtain rfl := hstale.state_eq
    rw [look_of_findsStale hstale]
    exact (h.of_eq rfl rfl rfl : HasSource (s.looked w.clock)).reload w₀
  · rw [hlook]
    exact h.of_eq rfl rfl rfl
  · rw [hlook]
    exact h
  · rw [hlook]
    exact h.of_eq rfl rfl rfl

theorem HasSource.beginsWithLook {α : Type} {x : Action Service α} (h : HasSource s)
    (hx : BeginsWithLook x) (w : World) : HasSource (x s w).2.1 := by
  rw [hx.state_look s w]
  exact h.look w

theorem HasSource.batchList (h : HasSource s) (records : List Value) (descriptors fields : Value)
    (w : World) : HasSource (batchList records descriptors fields s w).2.1 :=
  forEach_state_of (fun record _ w hs =>
    hs.beginsWithLook (beginsWithLook_batchOne descriptors fields record) w) records h

/-- A call leaves the service with the messages of its source. -/
theorem HasSource.run (h : HasSource s) (call : Call) (w : World) :
    HasSource (call.run s w).2.1 := by
  have hkept : ∀ {α : Type} {x : Action Service α}, Keeps (fun s _ => s) x →
      HasSource (x s w).2.1 := by
    intro α x hx
    have hsame : (x s w).2.1 = s := hx s w
    rw [hsame]
    exact h
  cases call with
  | check ds r =>
    rw [Call.run, state_bind_pure]
    exact h.beginsWithLook (beginsWithLook_check ds r) w
  | require ds r => exact h.beginsWithLook (beginsWithLook_require ds r) w
  | report o =>
    rw [Call.run, state_bind_pure]
    exact hkept (keeps_service (keeps_withoutLog_report o))
  | message key =>
    rw [Call.run, state_bind_pure]
    exact hkept (keeps_service (keeps_withoutLog_message key))
  | discover ds =>
    rw [Call.run, state_bind_pure]
    exact h.beginsWithLook (beginsWithLook_discover ds) w
  | reload => exact h.reload w
  | batch records ds fs =>
    rw [Call.run, state_bind_pure, Service.batch]
    cases records.elements with
    | error f => exact h
    | ok rs => exact h.batchList rs ds fs w
  | batchFile location ds fs =>
    rw [Call.run, state_bind_pure, Service.batchFile]
    rcases hload : Records.loadAt location s w with ⟨f | rs, s₁, w₁⟩
    · obtain ⟨rfl, -⟩ := Records.eq_of_loadAt hload
      rw [bind_of_error _ hload]
      exact h
    · obtain ⟨rfl, -⟩ := Records.eq_of_loadAt hload
      rw [bind_of_ok _ hload]
      exact h.batchList rs ds fs w₁

/-- Every reachable service has the messages of its source. -/
theorem Reachable.hasSource (h : Reachable s) : HasSource s := by
  induction h with
  | start hstart =>
    obtain ⟨c, -, hprepare⟩ := exists_of_start hstart
    exact hasSource_of_prepare hprepare (.inl rfl)
  | @call s s' w w' r _ call hcall ih =>
    have hrun := ih.run call w
    rw [hcall] at hrun
    exact hrun

/-! ## Reports -/

/-- A service reports on an outcome, in any world, and stays as it is. -/
def ReportsAs (s : Service) (o : Outcome) (r : Report) : Prop :=
  ∀ w, ∃ w', report o s w = (.ok r, s, w')

/-- A text for reports is in front of every one that the engine makes. -/
theorem HasSource.result_report (h : HasSource s) {front : String}
    (hfront : (s.messages.get Messages.reportKey).result = .ok (.text front)) (o : Outcome) :
    (s.engine.report o).result
      = .ok (if o.isOk then .ok else .error (front ++ labelSeparator.intercalate o.labels)) := by
  rw [Engine.report, h.shared]
  exact Messages.result_report hfront o

theorem reportsAs_of_result {o : Outcome} {r : Report} (h : (s.engine.report o).result = .ok r) :
    s.ReportsAs o r :=
  fun w => ⟨w.logged (s.engine.report o).log, by rw [report, state_bind, ofTraced, h]⟩

/-- A service with a text for reports puts it in front of every one of them. -/
theorem exists_front (hsource : HasSource s)
    (hgiven : ∀ m ∈ s.injected, ∃ t, (m.get Messages.reportKey).result = .ok (.text t)) :
    ∃ front : String, ∀ o, s.ReportsAs o (if o.isOk then .ok else
      .error (front ++ labelSeparator.intercalate o.labels)) := by
  have htext : ∃ t, (s.messages.get Messages.reportKey).result = .ok (.text t) := by
    cases hs : s.injected with
    | some m =>
      rw [hsource.given m hs]
      exact hgiven m hs
    | none =>
      obtain ⟨texts, htexts⟩ := hsource.loaded hs
      rw [htexts]
      exact Messages.get_reportKey_catalog texts
  obtain ⟨t, ht⟩ := htext
  exact ⟨t, fun o => reportsAs_of_result (hsource.result_report ht o)⟩

/-! ## Behind a check -/

variable {descriptors record : Value} {o : Outcome} {r : Report}

/-- A check of a service has the outcome that a check without a service has. -/
theorem result_of_check (h : check descriptors record s w = (.ok o, s', w')) :
    (FieldCheck.check descriptors record).result = .ok o := by
  rw [check] at h
  rcases hlook : look s w with ⟨f | u, s₁, w₁⟩
  · rw [bind_of_error _ hlook] at h
    cases h
  · rw [bind_of_ok _ hlook] at h
    exact congrArg Prod.fst h

theorem require_of_check (hcheck : check descriptors record s w = (.ok o, s', w'))
    (hreport : s'.ReportsAs o r) : ∃ v, require descriptors record s w
      = (if o.isOk then .ok () else refusal o r, s', v) := by
  rw [require, bind_of_ok _ hcheck]
  cases o.isOk with
  | true => exact ⟨w', rfl⟩
  | false =>
    obtain ⟨v, hv⟩ := hreport w'
    refine ⟨v, ?_⟩
    rw [if_neg (by simp), if_neg (by simp), bind_of_ok _ hv]
    rfl

theorem batch_of_check {fields : Value} {id : String}
    (hcheck : check descriptors record s w = (.ok o, s', w')) (hreport : s'.ReportsAs o r)
    (hid : recordId fields record = .ok id) :
    ∃ v, batch (.list [record]) descriptors fields s w = (.ok [⟨id, o, r⟩], s', v) := by
  obtain ⟨v, hv⟩ := hreport w'
  have hone : batchOne descriptors fields record s w = (.ok ⟨id, o, r⟩, s', v) := by
    rw [batchOne, bind_of_ok _ hcheck, hid, ofExcept_ok_bind, bind_of_ok _ hv]
    rfl
  refine ⟨v, ?_⟩
  rw [batch, Value.elements, ofExcept_ok_bind, batchList, forEach,
    bind_of_ok _ hone]
  rfl

end Service

end FieldCheck
