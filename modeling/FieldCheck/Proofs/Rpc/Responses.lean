/-
FieldCheck.Proofs.Rpc.Responses — every request has a response that can be sent.

A response holds two values that do not come from its own wording: the id, which
is echoed from the request, and the result of a method. The id was read, so it
has no repeated names and no number that is too long to be written. A result is
built from texts and truth values, with two exceptions. The bound of a descriptor
is a whole number of any size, but it was read under the limit on digits. The age
of messages is a floating-point number; it can be sent, but it need not be finite.

To answer a request is an action that has a result in every state and every world
(`handle_cases`), and what was logged before has no influence on it
(`ignoresLog_handle`).
-/
import FieldCheck.Proofs.Check.Discovery
import FieldCheck.Proofs.Json.Parts
import FieldCheck.Proofs.Rpc.Classification
import FieldCheck.Proofs.Service.Unseen

namespace FieldCheck

open FieldCheck.Json FieldCheck.Action

/-! ## The parts of results -/

theorem isPlain_outcome (o : Outcome) : IsPlain o.toJson := by
  refine isPlain_object (by simp) ?_
  rintro m hm
  simp only [List.mem_cons, List.not_mem_nil, or_false] at hm
  rcases hm with rfl | rfl
  · exact isPlain_bool _
  · exact isPlain_texts _

theorem isPlain_members_report {r : Report} {m : String × Json} (hm : m ∈ r.members) :
    IsPlain m.2 := by
  cases r with
  | ok =>
    simp only [Report.members, List.mem_cons, List.not_mem_nil, or_false] at hm
    subst hm
    exact isPlain_text _
  | error t =>
    simp only [Report.members, List.mem_cons, List.not_mem_nil, or_false] at hm
    rcases hm with rfl | rfl <;> exact isPlain_text _

theorem isPlain_report (r : Report) : IsPlain r.toJson := by
  refine isPlain_object ?_ fun m => isPlain_members_report
  cases r <;> simp [Report.members]

theorem isPlain_batchResult (r : BatchResult) : IsPlain r.toJson := by
  refine isPlain_object ?_ ?_
  · cases r.report <;> simp [Report.members]
  · intro m hm
    rcases List.mem_append.1 hm with hm | hm
    · simp only [List.mem_cons, List.not_mem_nil, or_false] at hm
      rcases hm with rfl | rfl
      · exact isPlain_text _
      · exact isPlain_texts _
    · exact isPlain_members_report hm

theorem isPlain_results (rs : List BatchResult) : IsPlain (Service.resultsJson rs) :=
  isPlain_array (List.forall_mem_map.2 fun r _ => isPlain_batchResult r)

/-- The bound of a descriptor can be written, because it was read. -/
theorem isPlain_requirement {r : Requirement} (h : r.IsCanonical) : IsPlain r.toJson := by
  have hlength : IsPlain (Requirement.lengthJson r.maxLength) := by
    cases hb : r.maxLength with
    | none => exact isPlain_null
    | some n =>
      obtain ⟨k, rfl, hk⟩ := h.bound_lt n hb
      refine isPlain_int ?_
      rw [Decimal.isWritable, decide_eq_true_iff, Int.natAbs_natCast]
      exact hk
  refine isPlain_object (by simp) ?_
  rintro m hm
  simp only [List.mem_cons, List.not_mem_nil, or_false] at hm
  rcases hm with rfl | rfl | rfl | rfl | rfl | rfl
  · exact isPlain_bool _
  · exact isPlain_text _
  · exact isPlain_text _
  · exact hlength
  · exact isPlain_texts _
  · exact isPlain_texts _

theorem isPlain_described {d : Described} (h : d.IsParsed) : IsPlain d.toJson := by
  refine isPlain_object (by simp) ?_
  rintro m hm
  simp only [List.mem_cons, List.not_mem_nil, or_false] at hm
  rcases hm with rfl | rfl
  · exact isPlain_text _
  · exact isPlain_requirement (Descriptor.isCanonical_of_parse h)

theorem isPlain_finding {f : Finding} (h : ∀ d ∈ f.described, d.IsParsed) : IsPlain f.toJson := by
  cases f with
  | single d => exact isPlain_described (h d (by simp [Finding.described]))
  | group label members =>
    refine isPlain_object (by simp) ?_
    rintro m hm
    simp only [List.mem_cons, List.not_mem_nil, or_false] at hm
    rcases hm with rfl | rfl
    · exact isPlain_text _
    · exact isPlain_array (List.forall_mem_map.2 fun d hd => isPlain_described (h d hd))

theorem isPlain_findings {fs : List Finding} (h : ∀ f ∈ fs, ∀ d ∈ f.described, d.IsParsed) :
    IsPlain (findingsJson fs) :=
  isPlain_array (List.forall_mem_map.2 fun f hf => isPlain_finding (h f hf))

namespace Rpc

/-! ## Results -/

namespace Method

theorem isPlain_reloaded : IsPlain reloaded := by
  refine isPlain_object (by simp) ?_
  rintro m hm
  simp only [List.mem_cons, List.not_mem_nil, or_false] at hm
  rcases hm with rfl | rfl <;> exact isPlain_text _

/-- Every method but one has results without numbers that are not finite. -/
theorem yields_isPlain_run {m : Method} (hm : m ≠ .age) (params : Value) :
    Yields IsPlain (m.run params) := by
  cases m with
  | check => exact .behind _ fun o => yields_pure (isPlain_outcome o)
  | require => exact .behind _ fun o => .behind _ fun r => yields_pure (isPlain_report r)
  | discover =>
    have hfindings : Yields (fun fs => ∀ f ∈ fs, ∀ d ∈ f.described, d.IsParsed)
        (Service.discover (param descriptorsKey params)) :=
      .behind _ fun _ => yields_ofTraced fun fs => isParsed_of_discover
    exact hfindings.bind fun fs h => yields_pure (isPlain_findings h)
  | batch => exact .behind _ fun rs => yields_pure (isPlain_results rs)
  | batchFile => exact .behind _ fun rs => yields_pure (isPlain_results rs)
  | reload => exact .behind _ fun _ => yields_pure isPlain_reloaded
  | age => exact absurd rfl hm

theorem run_age (params : Value) (s : Service) (w : World) :
    (age.run params s w) = (.ok (ageJson (s.age w.clock)), s, w) := rfl

theorem isSendable_ageJson (x : Option Double) : IsSendable (ageJson x) := by
  cases x with
  | none =>
    refine (isSendable_object_iff _).2 ⟨by simp, ?_⟩
    exact List.forall_mem_singleton.2 isPlain_null.toIsSendable
  | some x =>
    refine (isSendable_object_iff _).2 ⟨by simp, ?_⟩
    exact List.forall_mem_singleton.2 ⟨isProper_of_parts_eq_nil rfl, rfl⟩

/-- The age is the one number in a result that need not be finite. -/
theorem isFinite_ageJson_iff (x : Option Double) :
    IsFinite (ageJson x) ↔ ∀ age ∈ x, age.IsFinite := by
  cases x with
  | none =>
    rw [ageJson, isFinite_object_iff, List.forall_mem_singleton]
    simpa using isPlain_null.finite
  | some x =>
    rw [ageJson, isFinite_object_iff, List.forall_mem_singleton, IsFinite, everywhere_iff]
    simp [HasFiniteFloat, parts]

theorem isSendable_run {m : Method} {params : Value} {s : Service} {w : World} {j : Json}
    (h : (m.run params s w).1 = .ok j) : IsSendable j := by
  by_cases hm : m = .age
  · subst hm
    rw [run_age] at h
    cases h
    exact isSendable_ageJson _
  · exact (yields_isPlain_run hm params s w j h).toIsSendable

/-- A result is finite unless it is the age of messages and that is not. -/
theorem isFinite_run_iff {m : Method} {params : Value} {s : Service} {w : World} {j : Json}
    (h : (m.run params s w).1 = .ok j) :
    IsFinite j ↔ (m = .age → ∀ age ∈ s.age w.clock, age.IsFinite) := by
  by_cases hm : m = .age
  · subst hm
    rw [run_age] at h
    cases h
    simp [isFinite_ageJson_iff]
  · simp [hm, (yields_isPlain_run hm params s w j h).finite]

end Method

/-! ## Requests -/

namespace Request

/-- The id that a request is answered under. -/
def id : Request → Json
  | call id _ _ => id
  | failed id _ => id
  | broken id _ => id

theorem id_ofMethod (i : Json) (method params : Value) : (ofMethod i method params).id = i := by
  unfold ofMethod
  split
  · rfl
  · split <;> rfl

theorem id_ofParams (i : Json) (method : Value) (params : Json) :
    (ofParams i method params).id = i := by
  unfold ofParams
  split
  · exact id_ofMethod i method _
  · rfl

theorem id_ofVersioned (members : List (String × Json)) :
    (ofVersioned members).id = memberOf "id" members := by
  unfold ofVersioned
  dsimp only
  split
  · exact id_ofParams _ _ _
  · rfl

/-- The id is nothing, or a member of the object that was read. -/
theorem id_cases (cs : List Char) : (ofChars cs).id = .null
    ∨ ∃ members v, Json.scan cs = .ok (.object members) ∧ Json.member "id" members = some v
      ∧ (ofChars cs).id = v := by
  unfold ofChars
  rw [Json.read]
  rcases hscan : Json.scan cs with what | j
  · cases what <;> exact .inl rfl
  · cases j with
    | object members =>
      simp only [ofJson]
      split
      · rw [id_ofVersioned, memberOf]
        cases hid : Json.member "id" members with
        | none => exact .inl rfl
        | some v => exact .inr ⟨members, v, rfl, hid, rfl⟩
      · exact .inl rfl
    | _ => exact .inl rfl

theorem isSendable_id (cs : List Char) : IsSendable (ofChars cs).id := by
  rcases id_cases cs with h | ⟨members, v, hscan, hmember, h⟩
  · rw [h]
    exact isPlain_null.toIsSendable
  · rw [h]
    exact (isSendable_of_scan hscan).member hmember

/-- The id is finite if all that was read is. -/
theorem isFinite_id {cs : List Char} (hfinite : ∀ j, Json.scan cs = .ok j → IsFinite j) :
    IsFinite (ofChars cs).id := by
  rcases id_cases cs with h | ⟨members, v, hscan, hmember, h⟩
  · rw [h]
    exact isPlain_null.finite
  · rw [h]
    exact (hfinite _ hscan).member hmember

end Request

/-! ## Responses -/

/-- A result in a response is the result of the method that the request called. -/
def Response.IsResultOf (r : Response) (q : Request) (s : Service) (w : World) : Prop :=
  ∀ j, r.content = .ok j → ∃ id m params, q = .call id m params
    ∧ (m.run params s (dispatched m w)).1 = .ok j

/-- Every request is answered under its id. -/
theorem answer_cases (q : Request) (s : Service) (w : World) : ∃ r s' w',
    answer q s w = (.ok r, s', w') ∧ r.id = q.id ∧ r.IsResultOf q s w := by
  cases q with
  | failed id f => exact ⟨_, s, w, rfl, rfl, by rintro _ ⟨⟩⟩
  | broken id f =>
    exact ⟨_, s, _, answerFault_eq id f s w, rfl, by rintro _ ⟨⟩⟩
  | call id m params =>
    rw [answer, answerCall, logServer, log_bind]
    cases m.schema.complaints "params" params with
    | error f =>
      exact ⟨_, s, _, answerFault_eq id f s (dispatched m w), rfl, by rintro _ ⟨⟩⟩
    | ok complaints =>
      cases complaints with
      | some details => exact ⟨_, s, _, rfl, rfl, by rintro _ ⟨⟩⟩
      | none =>
        rcases hrun : m.run params s (dispatched m w) with ⟨f | j, s', w'⟩
        · obtain ⟨message, w'', h⟩ := answerAccepted_of_error id hrun
          exact ⟨_, s', w'', h, rfl, by rintro _ ⟨⟩⟩
        · refine ⟨_, s', w', answerAccepted_of_ok id hrun, rfl, ?_⟩
          rintro _ ⟨⟩
          exact ⟨id, m, params, rfl, by rw [hrun]⟩

theorem handle_cases (text : String) (s : Service) (w : World) : ∃ r s' w',
    handle text s w = (.ok r, s', w') ∧ r.id = (Request.ofChars text.toList).id
      ∧ r.IsResultOf (Request.ofChars text.toList) s w :=
  answer_cases _ s w

theorem isPlain_failure (f : Failure) : IsPlain f.toJson := by
  have hcode : Decimal.isWritable f.code.number = true := by
    rw [Decimal.isWritable, decide_eq_true_iff]
    calc f.code.number.natAbs < 10 ^ 5 := by cases f.code <;> decide
      _ ≤ 10 ^ Decimal.digitLimit := Nat.pow_le_pow_right (by decide) (by decide)
  refine isPlain_object (by simp) ?_
  rintro m hm
  simp only [List.mem_cons, List.not_mem_nil, or_false] at hm
  rcases hm with rfl | rfl
  · exact isPlain_int hcode
  · exact isPlain_text _

theorem isSendable_response {r : Response} (hid : IsSendable r.id)
    (hresult : ∀ j, r.content = .ok j → IsSendable j) : IsSendable r.toJson := by
  rw [Response.toJson, isSendable_object_iff, Response.contentMember]
  cases hcontent : r.content with
  | error f =>
    simpa using ⟨(isPlain_text version).toIsSendable, hid, (isPlain_failure f).toIsSendable⟩
  | ok j => simpa using ⟨(isPlain_text version).toIsSendable, hid, hresult j hcontent⟩

theorem isFinite_response_iff (r : Response) :
    IsFinite r.toJson ↔ IsFinite r.id ∧ ∀ j, r.content = .ok j → IsFinite j := by
  rw [Response.toJson, isFinite_object_iff, Response.contentMember]
  cases hcontent : r.content with
  | error f => simp [(isPlain_text version).finite, (isPlain_failure f).finite]
  | ok j => simp [(isPlain_text version).finite]

/-- Every text has a response, and the response can be sent. -/
theorem handle_isSendable (text : String) (s : Service) (w : World) : ∃ r s' w',
    handle text s w = (.ok r, s', w') ∧ IsSendable r.toJson := by
  obtain ⟨r, s', w', hhandle, hid, hresult⟩ := handle_cases text s w
  refine ⟨r, s', w', hhandle, isSendable_response (hid ▸ Request.isSendable_id _) ?_⟩
  intro j hj
  obtain ⟨id, m, params, -, hrun⟩ := hresult j hj
  exact Method.isSendable_run hrun

/-! ## What was logged before -/

end Rpc

namespace Records

theorem ofFile_of_log (w : World) (past : List LogRecord) (path : String) :
    ofFile { w with log := past } path = ofFile w path := by
  rw [ofFile, ofFile]

theorem ignoresLog_loadAt {σ : Type} (location : Value) :
    IgnoresLog (loadAt location : Action σ (List Value)) := by
  cases location with
  | text uri =>
    refine (ignoresLog_ofExcept _).bind fun u => .world_bind (fun w past => ?_) fun w => ?_
    · dsimp only
      rw [ofFile_of_log]
      rfl
    · dsimp only
      split
      · exact ignoresLog_ofExcept _
      split
      · exact (ignoresLog_changeWorld fun _ _ => rfl).bind fun _ => ignoresLog_ofExcept _
      · exact ignoresLog_fail _
  | _ => exact ignoresLog_fail _

end Records

namespace Rpc

theorem ignoresLog_logServer {σ : Type} (message : String) :
    IgnoresLog (logServer message : Action σ Unit) := ignoresLog_log _ _ _

theorem IgnoresLog.attempt {σ α : Type} {x : Action σ α} (hx : IgnoresLog x) :
    IgnoresLog (attempt x) := by
  intro s w past
  obtain ⟨log, hlog⟩ := hx s w past
  exact ⟨log, by rw [Rpc.attempt, Rpc.attempt, hlog]⟩

theorem ignoresLog_run (m : Method) (params : Value) : IgnoresLog (m.run params) := by
  cases m with
  | check => exact (Service.ignoresLog_check _ _).bind fun _ => ignoresLog_pure _
  | require =>
    exact (Service.ignoresLog_check _ _).bind fun _ => (Service.ignoresLog_report _).bind fun _ =>
      ignoresLog_pure _
  | discover => exact (Service.ignoresLog_discover _).bind fun _ => ignoresLog_pure _
  | batch =>
    have hbatch : IgnoresLog (Service.batch (Method.param Method.recordsKey params)
        (Method.param Method.descriptorsKey params) (Method.param Method.idFieldsKey params)) :=
      (ignoresLog_ofExcept _).bind fun rs => Service.ignoresLog_batchList rs _ _
    exact hbatch.bind fun _ => ignoresLog_pure _
  | batchFile =>
    have hbatch : IgnoresLog (Service.batchFile (Method.param Method.fileUriKey params)
        (Method.param Method.descriptorsKey params) (Method.param Method.idFieldsKey params)) :=
      (Records.ignoresLog_loadAt _).bind fun rs => Service.ignoresLog_batchList rs _ _
    exact hbatch.bind fun _ => ignoresLog_pure _
  | reload => exact Service.ignoresLog_reload.bind fun _ => ignoresLog_pure _
  | age =>
    exact ignoresLog_state.bind fun s => .world_bind (fun _ _ => rfl) fun w => ignoresLog_pure _

theorem ignoresLog_answerFault {σ : Type} (id : Json) (f : Fault) :
    IgnoresLog (answerFault id f : Action σ Response) :=
  (ignoresLog_logServer _).bind fun _ => ignoresLog_pure _

theorem ignoresLog_answer (q : Request) : IgnoresLog (answer q) := by
  cases q with
  | failed id f => exact ignoresLog_pure _
  | broken id f => exact ignoresLog_answerFault id f
  | call id m params =>
    refine (ignoresLog_logServer _).bind fun _ => ?_
    cases m.schema.complaints "params" params with
    | error f => exact ignoresLog_answerFault id f
    | ok complaints =>
      cases complaints with
      | some details => exact ignoresLog_pure _
      | none =>
        refine (IgnoresLog.attempt (ignoresLog_run m params)).bind fun r => ?_
        cases r with
        | ok result => exact ignoresLog_pure _
        | error f => exact ignoresLog_answerFault id f

theorem ignoresLog_handle (text : String) : IgnoresLog (handle text) := ignoresLog_answer _

end Rpc

end FieldCheck
