/-
FieldCheck.Proofs.Rpc.Classification — which response a request gets.

A request can be wrong in several ways at once. The ways are the stages of
`Stage`, in order. `Stage.Fails` says for each stage alone what it is to fail
it, in terms of what the text spells, without regard to the other stages;
only the last one depends on the service and the world. The first stage that
a request fails gives the code and the id of the response, and a request that
fails none gets the result of its method (`handle_classified`).

Where the text is not JSON, or JSON that is no object, it has no members, so
that it fails the stage of the version as well.

Every complaint about parameters can be written, because every number that was
read can be. So the only fault that is answered as an internal error is one of
the method itself.
-/
import FieldCheck.Proofs.Action
import FieldCheck.Proofs.Json.Reading
import FieldCheck.Proofs.Schema
import FieldCheck.Rpc.Answer

namespace FieldCheck

open FieldCheck.Action

namespace Json

/-! ## Values of members -/

/-- The values that count as false. -/
inductive IsFalsy : Json → Prop
  | null : IsFalsy .null
  | false : IsFalsy (.bool false)
  | int : IsFalsy (.int 0)
  | float {x : Double} (h : x.isZero = true) : IsFalsy (.float x)
  | text : IsFalsy (.text "")
  | array : IsFalsy (.array [])
  | object : IsFalsy (.object [])

/-- An array or an object that is not empty. -/
def IsFilled : Json → Prop
  | array items => items ≠ []
  | object members => members ≠ []
  | _ => False

theorem truthy_toValue_iff (v : Json) : v.toValue.truthy = true ↔ ¬ v.IsFalsy := by
  have hfalsy : ∀ {v : Json}, v.IsFalsy → v.toValue.truthy = false := by
    intro v h
    cases h <;> simp_all [toValue, toValues, toEntries, Value.truthy]
  constructor
  · intro h hv
    simp [hfalsy hv] at h
  · intro h
    cases v with
    | null => exact absurd .null h
    | bool b =>
      cases b with
      | false => exact absurd .false h
      | true => rfl
    | int n =>
      have hne : n ≠ 0 := fun e => h (e ▸ .int)
      simp [toValue, Value.truthy, hne]
    | float x =>
      have hx : x.isZero = false := by
        cases hx : x.isZero with
        | false => rfl
        | true => exact absurd (.float hx) h
      simp [toValue, Value.truthy, hx]
    | text s =>
      have hne : s ≠ "" := fun e => h (e ▸ .text)
      simp [toValue, Value.truthy, hne]
    | array items =>
      have hne : items ≠ [] := fun e => h (e ▸ .array)
      simp [toValue, toValues_eq_map, Value.truthy, hne]
    | object members =>
      have hne : members ≠ [] := fun e => h (e ▸ .object)
      simp [toValue, toEntries_eq_map, Value.truthy, hne]

/-- A value that is not false and no array or object can be a key. -/
theorem asKey_toValue {v : Json} (hv : ¬ v.IsFalsy) (hfilled : ¬ v.IsFilled) :
    v.toValue.asKey = .ok v.toValue := by
  cases v with
  | array items =>
    have hne : items ≠ [] := fun e => hv (e ▸ .array)
    exact absurd hne hfilled
  | object members =>
    have hne : members ≠ [] := fun e => hv (e ▸ .object)
    exact absurd hne hfilled
  | _ => rfl

end Json

namespace Rpc

/-! ## What a request says -/

/-- The members of the object that a text spells. A text that spells none has none. -/
def membersOf (text : String) : List (String × Json) :=
  match Json.scan text.toList with
  | .ok (.object members) => members
  | _ => []

/-- The member of a request with a name. -/
def given (name text : String) : Option Json := Json.member name (membersOf text)

/-- The id of a request, which may be missing. -/
def idOf (text : String) : Json := (given "id" text).getD .null

/-- The parameters of a request; missing ones are none. -/
def paramsOf (text : String) : Value :=
  match given "params" text with
  | some (.object members) => .dict (Json.toEntries members)
  | _ => .dict []

/-- The world in which a method is run. -/
def dispatched (m : Method) (w : World) : World :=
  w.logged [⟨.debug, .server, "Dispatching method: " ++ m.name⟩]

/-! ## Stages -/

/-- The stages that a request goes through. -/
inductive Stage where
  /-- The text is JSON. -/
  | json
  /-- It is an object of the version of the protocol. -/
  | version
  /-- It has a method. -/
  | method
  /-- Its parameters, if there are any, are an object. -/
  | params
  /-- The method is known. -/
  | name
  /-- The parameters are as the method needs them. -/
  | schema
  /-- The method has a result. -/
  | run

namespace Stage

/-- The place in the order of the stages. -/
def rank : Stage → Nat
  | json => 0
  | version => 1
  | method => 2
  | params => 3
  | name => 4
  | schema => 5
  | run => 6

/-- The code of the answer to a request that fails the stage. -/
def code : Stage → Int
  | json => -32700
  | version => -32600
  | method => -32600
  | params => -32602
  | name => -32601
  | schema => -32602
  | run => -32000

/-- The id of the answer to a request that fails the stage. -/
def id (text : String) : Stage → Json
  | json => .null
  | version => .null
  | _ => idOf text

/-- A request fails a stage. -/
def Fails (text : String) (s : Service) (w : World) : Stage → Prop
  | json => ∀ v, Json.scan text.toList ≠ .ok v
  | version => given "jsonrpc" text ≠ some (.text "2.0")
  | method => ∀ v, given "method" text = some v → v.IsFalsy
  | params => ∃ v, given "params" text = some v ∧ ∀ members, v ≠ .object members
  | name => ∀ m : Method, given "method" text ≠ some (.text m.name)
  | schema => ∃ m : Method, given "method" text = some (.text m.name)
      ∧ ¬ Schema.Holds m.schema (paramsOf text)
  | run => ∃ (m : Method) (f : Fault), given "method" text = some (.text m.name)
      ∧ (m.run (paramsOf text) s (dispatched m w)).1 = .error f

/-- The stage is the first one that a request fails. -/
def IsFirst (text : String) (s : Service) (w : World) (k : Stage) : Prop :=
  k.Fails text s w ∧ ∀ earlier : Stage, earlier.rank < k.rank → ¬ earlier.Fails text s w

end Stage

/-! ## Responses -/

/-- The response with an error. -/
def errorObject (id : Json) (code : Int) (message : String) : Json :=
  .object [("jsonrpc", .text "2.0"), ("id", id),
    ("error", .object [("code", .int code), ("message", .text message)])]

/-- The response with a result. -/
def resultObject (id result : Json) : Json :=
  .object [("jsonrpc", .text "2.0"), ("id", id), ("result", result)]

/-- A response reports an error with a code. -/
def Reports (r : Response) (id : Json) (code : Int) : Prop :=
  ∃ message, r.toJson = errorObject id code message

theorem reports_failed (id : Json) (code : ErrorCode) (message : String) :
    Reports ⟨id, .error ⟨code, message⟩⟩ id code.number := ⟨message, rfl⟩

/-- The log record on a request that failed by a fault. -/
def brokenRecord (f : Fault) : LogRecord :=
  ⟨.debug, .server, "Error processing request: " ++ f.message⟩

theorem answerFault_eq {σ : Type} (id : Json) (f : Fault) (s : σ) (w : World) :
    answerFault id f s w = (.ok (Response.failed id .internal ("Internal error: " ++ f.message)), s,
      w.logged [brokenRecord f]) := rfl

/-! ## Requests -/

theorem membersOf_of_scan {text : String} {members : List (String × Json)}
    (h : Json.scan text.toList = .ok (.object members)) : membersOf text = members := by
  rw [membersOf, h]

theorem handle_of_scan {text : String} {v : Json} (h : Json.scan text.toList = .ok v) :
    handle text = answer (Request.ofJson v) := by
  rw [handle, Request.ofChars, Json.read, h]

theorem handle_of_complaint {text : String} {what : Json.Complaint} {left : Nat}
    (h : Json.scan text.toList = .error (.complaint what left)) :
    ∃ message, handle text = pure ⟨.null, .error ⟨.parse, message⟩⟩ := by
  rw [handle, Request.ofChars, Json.read, h]
  exact ⟨_, rfl⟩

theorem isVersion_iff (v : Json) : Request.isVersion v = true ↔ v = .text "2.0" := by
  cases v with
  | text s =>
    simp only [Request.isVersion, decide_eq_true_iff, Json.text.injEq]
    rfl
  | _ => simp [Request.isVersion]

theorem ofJson_of_version {text : String} {v : Json} (hscan : Json.scan text.toList = .ok v)
    (h : given "jsonrpc" text ≠ some (.text "2.0")) :
    ∃ message, Request.ofJson v = .failed .null ⟨.invalidRequest, message⟩ := by
  cases v with
  | object members =>
    rw [given, membersOf_of_scan hscan] at h
    have hversion : Request.isVersion (Request.memberOf "jsonrpc" members) = false := by
      rw [Bool.eq_false_iff, ne_eq, isVersion_iff, Request.memberOf]
      cases hm : Json.member "jsonrpc" members with
      | none => simp
      | some u => simpa [hm] using h
    simp only [Request.ofJson, hversion, Bool.false_eq_true, if_false]
    exact ⟨_, rfl⟩
  | _ => exact ⟨_, rfl⟩

theorem exists_members_of_version {text : String} (h : given "jsonrpc" text = some (.text "2.0")) :
    ∃ members, Json.scan text.toList = .ok (.object members) ∧ membersOf text = members
      ∧ Request.ofJson (.object members) = Request.ofVersioned members := by
  have hmembers := h
  rw [given, membersOf] at hmembers
  split at hmembers
  · rename_i members hscan
    refine ⟨members, hscan, membersOf_of_scan hscan, ?_⟩
    have hversion : Request.isVersion (Request.memberOf "jsonrpc" members) = true := by
      rw [isVersion_iff, Request.memberOf, hmembers]
      rfl
    simp only [Request.ofJson, hversion, if_true]
  · simp [Json.member] at hmembers

theorem memberOf_eq (name : String) {text : String} {members : List (String × Json)}
    (h : membersOf text = members) :
    Request.memberOf name members = (given name text).getD .null := by
  rw [Request.memberOf, given, h]

theorem ofVersioned_of_method {text : String} {members : List (String × Json)}
    (hmembers : membersOf text = members)
    (h : ∀ v, given "method" text = some v → v.IsFalsy) :
    ∃ message, Request.ofVersioned members = .failed (idOf text) ⟨.invalidRequest, message⟩ := by
  have hfalsy : (Request.memberOf "method" members).toValue.truthy = false := by
    rw [Bool.eq_false_iff, ne_eq, Json.truthy_toValue_iff, Classical.not_not,
      memberOf_eq "method" hmembers]
    cases hm : given "method" text with
    | none => exact .null
    | some v => exact h v hm
  simp only [Request.ofVersioned, hfalsy, Bool.false_eq_true, if_false,
    memberOf_eq "id" hmembers]
  exact ⟨_, rfl⟩

theorem ofVersioned_of_given {text : String} {members : List (String × Json)} {v : Json}
    (hmembers : membersOf text = members) (hv : given "method" text = some v)
    (htruthy : ¬ v.IsFalsy) :
    Request.ofVersioned members
      = Request.ofParams (idOf text) v.toValue ((given "params" text).getD (.object [])) := by
  have hmethod : Request.memberOf "method" members = v := by
    rw [memberOf_eq "method" hmembers, hv]
    rfl
  simp only [Request.ofVersioned, hmethod, (Json.truthy_toValue_iff v).2 htruthy, if_true,
    memberOf_eq "id" hmembers]
  rw [idOf, given, given, hmembers]

/-- A request with parameters that are an object, or without any. -/
theorem ofParams_of_object {text : String} (id : Json) (method : Value)
    (h : ¬ ∃ v, given "params" text = some v ∧ ∀ members, v ≠ .object members) :
    Request.ofParams id method ((given "params" text).getD (.object []))
      = Request.ofMethod id method (paramsOf text) := by
  rw [paramsOf]
  cases hp : given "params" text with
  | none => rfl
  | some v =>
    cases v with
    | object members => rfl
    | _ => exact absurd ⟨_, hp, by simp⟩ h

theorem ofParams_of_other {text : String} (id : Json) (method : Value)
    (h : ∃ v, given "params" text = some v ∧ ∀ members, v ≠ .object members) :
    ∃ message, Request.ofParams id method ((given "params" text).getD (.object []))
      = .failed id ⟨.invalidParams, message⟩ := by
  obtain ⟨v, hv, hobject⟩ := h
  rw [hv, Option.getD_some]
  cases v with
  | object members => exact absurd rfl (hobject members)
  | _ => exact ⟨_, rfl⟩

theorem ofMethod_name (id : Json) (m : Method) (params : Value) :
    Request.ofMethod id (.text m.name) params = .call id m params := by
  simp [Request.ofMethod, Value.asKey, Value.unhashablePart]

theorem ofMethod_of_unknown {v : Json} (id : Json) (params : Value) (htruthy : ¬ v.IsFalsy)
    (hfilled : ¬ v.IsFilled) (h : ∀ m : Method, v ≠ .text m.name) :
    Request.ofMethod id v.toValue params
      = .failed id ⟨.methodNotFound, "Method not found: " ++ v.toValue.shown⟩ := by
  have hnone : v.toValue.text?.bind Method.ofName? = none := by
    cases v with
    | text s =>
      refine List.find?_eq_none.2 fun m _ => ?_
      have hne : m.name ≠ s := fun e => h m (e ▸ rfl)
      simpa using hne
    | _ => rfl
  rw [Request.ofMethod, Json.asKey_toValue htruthy hfilled, hnone]

/-! ## Calls -/

/-- The parameters of a request can be written, because they were read. -/
theorem isWritable_paramsOf (text : String) : (paramsOf text).isWritable = true := by
  rw [paramsOf]
  split
  · rename_i members hparams
    rw [given, membersOf] at hparams
    split at hparams
    · rename_i all hscan
      have hall := (Json.isWritable_object_iff all).1 (Json.isWritable_of_scan hscan)
      rw [Json.member, Option.map_eq_some_iff] at hparams
      obtain ⟨m, hm, hmem⟩ := hparams
      have hwritable := hall m (List.mem_of_find?_eq_some hm)
      rw [hmem] at hwritable
      exact hwritable
    · simp [Json.member] at hparams
  · rfl

theorem answerCall_of_refused (id : Json) {m : Method} {params : Value} (s : Service) (w : World)
    (hwritable : params.isWritable = true) (h : ¬ Schema.Holds m.schema params) :
    ∃ message, answerCall id m params s w
      = (.ok ⟨id, .error ⟨.invalidParams, message⟩⟩, s, dispatched m w) := by
  have hrefused : m.schema.accepts params = false := by
    rw [Bool.eq_false_iff, ne_eq, Schema.accepts_iff]
    exact h
  have hcomplaints := Schema.complaints_of_isWritable "params" m.schema hwritable
  rw [hrefused] at hcomplaints
  rw [answerCall, logServer, log_bind, hcomplaints]
  exact ⟨_, rfl⟩

/-- A call with parameters that its schema accepts ends as the method ends. -/
theorem answerCall_of_accepted (id : Json) {m : Method} {params : Value} (s : Service) (w : World)
    (h : Schema.Holds m.schema params) :
    answerCall id m params s w = answerAccepted id m params s (dispatched m w) := by
  have hcomplaints : m.schema.complaints "params" params = .ok none :=
    (Schema.complaints_eq_none_iff _ _ _).2 ((Schema.accepts_iff _ _).2 h)
  rw [answerCall, logServer, log_bind, hcomplaints]
  rfl

theorem answerAccepted_of_error (id : Json) {m : Method} {params : Value} {s s' : Service}
    {w w' : World} {f : Fault} (h : m.run params s w = (.error f, s', w')) :
    ∃ message w'', answerAccepted id m params s w
      = (.ok ⟨id, .error ⟨.internal, message⟩⟩, s', w'') := by
  have hattempt : attempt (m.run params) s w = (.ok (.error f), s', w') := by
    rw [attempt, h]
  rw [answerAccepted, bind_of_ok _ hattempt]
  exact ⟨_, _, rfl⟩

theorem answerAccepted_of_ok (id : Json) {m : Method} {params : Value} {s s' : Service}
    {w w' : World} {result : Json} (h : m.run params s w = (.ok result, s', w')) :
    answerAccepted id m params s w = (.ok ⟨id, .ok result⟩, s', w') := by
  have hattempt : attempt (m.run params) s w = (.ok (.ok result), s', w') := by
    rw [attempt, h]
  rw [answerAccepted, bind_of_ok _ hattempt]
  rfl

/-! ## Classification -/

/-- The response to a request that fails a stage and none before it. -/
def Stage.Answers (k : Stage) (text : String) (s : Service) (w : World) : Prop :=
  ∃ r s' w', handle text s w = (.ok r, s', w') ∧ Reports r (k.id text) k.code

variable {text : String} {s : Service} {w : World}

theorem answers_json (hjson : Stage.json.Fails text s w)
    (hdigits : ∀ n, Json.scan text.toList ≠ .error (.digits n)) : Stage.json.Answers text s w := by
  rcases Json.scan_cases text.toList with ⟨v, hv, -⟩ | ⟨n, hn, -⟩ | ⟨what, left, hscan⟩
  · exact absurd hv (hjson v)
  · exact absurd hn (hdigits n)
  · obtain ⟨message, hmessage⟩ := handle_of_complaint hscan
    exact ⟨_, s, w, by rw [hmessage]; rfl, reports_failed _ _ _⟩

theorem answers_version (hjson : ¬ Stage.json.Fails text s w)
    (hversion : Stage.version.Fails text s w) : Stage.version.Answers text s w := by
  obtain ⟨v, hscan⟩ : ∃ v, Json.scan text.toList = .ok v := by
    simpa [Stage.Fails] using hjson
  obtain ⟨message, hmessage⟩ := ofJson_of_version hscan hversion
  exact ⟨_, s, w, by rw [handle_of_scan hscan, hmessage]; rfl, reports_failed _ _ _⟩

theorem handle_of_version (hversion : ¬ Stage.version.Fails text s w) :
    ∃ members, membersOf text = members
      ∧ handle text = answer (Request.ofVersioned members) := by
  obtain ⟨members, hscan, hmembers, hrequest⟩ :=
    exists_members_of_version (Classical.not_not.1 hversion)
  exact ⟨members, hmembers, by rw [handle_of_scan hscan, hrequest]⟩

theorem answers_method (hversion : ¬ Stage.version.Fails text s w)
    (hmethod : Stage.method.Fails text s w) : Stage.method.Answers text s w := by
  obtain ⟨members, hmembers, hhandle⟩ := handle_of_version hversion
  obtain ⟨message, hmessage⟩ := ofVersioned_of_method hmembers hmethod
  exact ⟨_, s, w, by rw [hhandle, hmessage]; rfl, reports_failed _ _ _⟩

theorem handle_of_method (hversion : ¬ Stage.version.Fails text s w)
    (hmethod : ¬ Stage.method.Fails text s w) :
    ∃ v, given "method" text = some v ∧ ¬ v.IsFalsy ∧ handle text = answer
      (Request.ofParams (idOf text) v.toValue ((given "params" text).getD (.object []))) := by
  obtain ⟨v, hv, htruthy⟩ : ∃ v, given "method" text = some v ∧ ¬ v.IsFalsy := by
    simpa [Stage.Fails] using hmethod
  obtain ⟨members, hmembers, hhandle⟩ := handle_of_version hversion
  exact ⟨v, hv, htruthy, by rw [hhandle, ofVersioned_of_given hmembers hv htruthy]⟩

theorem answers_params (hversion : ¬ Stage.version.Fails text s w)
    (hmethod : ¬ Stage.method.Fails text s w) (hparams : Stage.params.Fails text s w) :
    Stage.params.Answers text s w := by
  obtain ⟨v, -, -, hhandle⟩ := handle_of_method hversion hmethod
  obtain ⟨message, hmessage⟩ := ofParams_of_other (idOf text) v.toValue hparams
  exact ⟨_, s, w, by rw [hhandle, hmessage]; rfl, reports_failed _ _ _⟩

theorem answers_name (hversion : ¬ Stage.version.Fails text s w)
    (hmethod : ¬ Stage.method.Fails text s w) (hparams : ¬ Stage.params.Fails text s w)
    (hname : Stage.name.Fails text s w)
    (hfilled : ∀ v, given "method" text = some v → ¬ v.IsFilled) :
    Stage.name.Answers text s w := by
  obtain ⟨v, hv, htruthy, hhandle⟩ := handle_of_method hversion hmethod
  rw [ofParams_of_object _ _ hparams] at hhandle
  have hunknown : ∀ m : Method, v ≠ .text m.name := fun m e => hname m (e ▸ hv)
  have hfailed := ofMethod_of_unknown (idOf text) (paramsOf text) htruthy (hfilled v hv) hunknown
  exact ⟨_, s, w, by rw [hhandle, hfailed]; rfl, reports_failed _ _ _⟩

theorem handle_of_name (hversion : ¬ Stage.version.Fails text s w)
    (hmethod : ¬ Stage.method.Fails text s w) (hparams : ¬ Stage.params.Fails text s w)
    (hname : ¬ Stage.name.Fails text s w) :
    ∃ m : Method, given "method" text = some (.text m.name)
      ∧ handle text = answerCall (idOf text) m (paramsOf text) := by
  obtain ⟨m, hm⟩ : ∃ m : Method, given "method" text = some (.text m.name) := by
    simpa [Stage.Fails] using hname
  obtain ⟨v, hv, -, hhandle⟩ := handle_of_method hversion hmethod
  rw [ofParams_of_object _ _ hparams] at hhandle
  obtain rfl : v = .text m.name := by
    rw [hv, Option.some.injEq] at hm
    exact hm
  exact ⟨m, hm, by rw [hhandle, Json.toValue, ofMethod_name, answer]⟩

/-- Two methods with one name are one method. -/
theorem name_injective {m m' : Method}
    (h : (some (Json.text m.name) : Option Json) = some (.text m'.name)) : m = m' := by
  have hname : m.name = m'.name := by simpa using h
  have hsome := Method.ofName?_name m
  rw [hname, Method.ofName?_name, Option.some.injEq] at hsome
  exact hsome.symm

theorem answers_schema (hversion : ¬ Stage.version.Fails text s w)
    (hmethod : ¬ Stage.method.Fails text s w) (hparams : ¬ Stage.params.Fails text s w)
    (hname : ¬ Stage.name.Fails text s w) (hschema : Stage.schema.Fails text s w) :
    Stage.schema.Answers text s w := by
  obtain ⟨m, hm, hhandle⟩ := handle_of_name hversion hmethod hparams hname
  obtain ⟨m', hm', hrefused⟩ := hschema
  obtain rfl := name_injective (hm.symm.trans hm')
  obtain ⟨message, hanswer⟩ := answerCall_of_refused (idOf text) s w
    (isWritable_paramsOf text) hrefused
  exact ⟨_, s, dispatched m w, by rw [hhandle, hanswer], reports_failed _ _ _⟩

theorem handle_of_schema (hversion : ¬ Stage.version.Fails text s w)
    (hmethod : ¬ Stage.method.Fails text s w) (hparams : ¬ Stage.params.Fails text s w)
    (hname : ¬ Stage.name.Fails text s w) (hschema : ¬ Stage.schema.Fails text s w) :
    ∃ m : Method, given "method" text = some (.text m.name)
      ∧ handle text s w = answerAccepted (idOf text) m (paramsOf text) s (dispatched m w) := by
  obtain ⟨m, hm, hhandle⟩ := handle_of_name hversion hmethod hparams hname
  have hholds : Schema.Holds m.schema (paramsOf text) :=
    Classical.not_not.1 fun hrefused => hschema ⟨m, hm, hrefused⟩
  exact ⟨m, hm, by rw [hhandle, answerCall_of_accepted _ _ _ hholds]⟩

theorem answers_run (hversion : ¬ Stage.version.Fails text s w)
    (hmethod : ¬ Stage.method.Fails text s w) (hparams : ¬ Stage.params.Fails text s w)
    (hname : ¬ Stage.name.Fails text s w) (hschema : ¬ Stage.schema.Fails text s w)
    (hrun : Stage.run.Fails text s w) : Stage.run.Answers text s w := by
  obtain ⟨m, hm, hhandle⟩ := handle_of_schema hversion hmethod hparams hname hschema
  obtain ⟨m', f, hm', hf⟩ := hrun
  obtain rfl := name_injective (hm.symm.trans hm')
  rcases hend : m.run (paramsOf text) s (dispatched m w) with ⟨r, s', w'⟩
  rw [hend] at hf
  obtain rfl : r = .error f := hf
  obtain ⟨message, w'', hanswer⟩ := answerAccepted_of_error (idOf text) hend
  exact ⟨_, s', w'', by rw [hhandle, hanswer], reports_failed _ _ _⟩

/-- The first stage that a request fails gives the response. -/
theorem Stage.IsFirst.answers {k : Stage} (h : k.IsFirst text s w)
    (hdigits : ∀ n, Json.scan text.toList ≠ .error (.digits n))
    (hfilled : ∀ v, given "method" text = some v → ¬ v.IsFilled) : k.Answers text s w := by
  obtain ⟨hfails, hbefore⟩ := h
  cases k with
  | json => exact answers_json hfails hdigits
  | version => exact answers_version (hbefore .json (by decide)) hfails
  | method => exact answers_method (hbefore .version (by decide)) hfails
  | params =>
    exact answers_params (hbefore .version (by decide)) (hbefore .method (by decide)) hfails
  | name =>
    exact answers_name (hbefore .version (by decide)) (hbefore .method (by decide))
      (hbefore .params (by decide)) hfails hfilled
  | schema =>
    exact answers_schema (hbefore .version (by decide)) (hbefore .method (by decide))
      (hbefore .params (by decide)) (hbefore .name (by decide)) hfails
  | run =>
    exact answers_run (hbefore .version (by decide)) (hbefore .method (by decide))
      (hbefore .params (by decide)) (hbefore .name (by decide)) (hbefore .schema (by decide)) hfails

/-- A request that fails a stage fails a first one. -/
theorem Stage.exists_isFirst {k : Stage} (h : k.Fails text s w) :
    ∃ first : Stage, first.IsFirst text s w := by
  induction hk : k.rank using Nat.strongRecOn generalizing k with
  | ind n ih =>
    by_cases hearlier : ∃ e : Stage, e.rank < k.rank ∧ e.Fails text s w
    · obtain ⟨e, he, hfails⟩ := hearlier
      exact ih e.rank (hk ▸ he) hfails rfl
    · exact ⟨k, h, fun e he hfails => hearlier ⟨e, he, hfails⟩⟩

/-- A request that fails no stage is answered with the result of its method. -/
theorem handle_of_passed (h : ∀ k : Stage, ¬ k.Fails text s w) :
    ∃ (m : Method) (result : Json) (s' : Service) (w' : World),
      given "method" text = some (.text m.name)
        ∧ (m.run (paramsOf text) s (dispatched m w)).1 = .ok result
        ∧ handle text s w = (.ok ⟨idOf text, .ok result⟩, s', w') := by
  obtain ⟨m, hm, hhandle⟩ :=
    handle_of_schema (h .version) (h .method) (h .params) (h .name) (h .schema)
  rcases hend : m.run (paramsOf text) s (dispatched m w) with ⟨f | result, s', w'⟩
  · exact absurd ⟨m, f, hm, by rw [hend]⟩ (h .run)
  · exact ⟨m, result, s', w', hm, by rw [hend], by rw [hhandle, answerAccepted_of_ok _ hend]⟩

/-- The first stage that a request fails decides the response. A request that
fails none is answered with the result of its method. Only a text with a run of
too many digits is refused for its digits (`Json.hasLongRun_of_scan`). -/
theorem handle_classified (text : String) (s : Service) (w : World)
    (hdigits : ∀ n, Json.scan text.toList ≠ .error (.digits n))
    (hfilled : ∀ v, given "method" text = some v → ¬ v.IsFilled) :
    ∃ r s' w', handle text s w = (.ok r, s', w')
      ∧ ((∃ k : Stage, k.IsFirst text s w ∧ Reports r (k.id text) k.code)
        ∨ ((∀ k : Stage, ¬ k.Fails text s w) ∧ ∃ (m : Method) (result : Json),
          given "method" text = some (.text m.name)
            ∧ (m.run (paramsOf text) s (dispatched m w)).1 = .ok result
            ∧ r.toJson = resultObject (idOf text) result)) := by
  by_cases hfails : ∃ k : Stage, k.Fails text s w
  · obtain ⟨k, hk⟩ := hfails
    obtain ⟨first, hfirst⟩ := Stage.exists_isFirst hk
    obtain ⟨r, s', w', hhandle, hreports⟩ := hfirst.answers hdigits hfilled
    exact ⟨r, s', w', hhandle, .inl ⟨first, hfirst, hreports⟩⟩
  · have hpassed : ∀ k : Stage, ¬ k.Fails text s w := fun k hk => hfails ⟨k, hk⟩
    obtain ⟨m, result, s', w', hm, hrun, hhandle⟩ := handle_of_passed hpassed
    exact ⟨_, s', w', hhandle, .inr ⟨hpassed, m, result, hm, hrun, rfl⟩⟩

/-- A request for a method that is not known, with parameters of the wrong kind. -/
def twiceWrong : String :=
  "\x7b\"jsonrpc\": \"2.0\", \"id\": 7, \"method\": \"check\", \"params\": [1]\x7d"

theorem scan_twiceWrong : Json.scan twiceWrong.toList = .ok (.object [("jsonrpc", .text "2.0"),
    ("id", .int 7), ("method", .text "check"), ("params", .array [.int 1])]) := by
  simp only [twiceWrong, String.reduceToList]
  rfl

/-- A service without messages of its own, and a world with nothing in it. -/
def bare : Service := .unready ⟨"/c", ⟨"m", "en", .whole 1800, .warning⟩, []⟩ none .null

def nowhere : World := ⟨⟨"/", "/", "/"⟩, .empty, [], .zero, [], []⟩

theorem handle_classified_twiceWrong :
    (∀ n, Json.scan twiceWrong.toList ≠ .error (.digits n))
      ∧ (∀ v, given "method" twiceWrong = some v → ¬ v.IsFilled)
      ∧ Stage.params.IsFirst twiceWrong bare nowhere
      ∧ ∃ r s' w', handle twiceWrong bare nowhere = (.ok r, s', w')
        ∧ ((∃ k : Stage, k.IsFirst twiceWrong bare nowhere
            ∧ Reports r (k.id twiceWrong) k.code)
          ∨ ((∀ k : Stage, ¬ k.Fails twiceWrong bare nowhere) ∧ ∃ (m : Method) (result : Json),
            given "method" twiceWrong = some (.text m.name)
              ∧ (m.run (paramsOf twiceWrong) bare (dispatched m nowhere)).1 = .ok result
              ∧ r.toJson = resultObject (idOf twiceWrong) result)) := by
  have hdigits : ∀ n, Json.scan twiceWrong.toList ≠ .error (.digits n) := by
    intro n h
    rw [scan_twiceWrong] at h
    cases h
  have hmembers := membersOf_of_scan scan_twiceWrong
  have hmethod : given "method" twiceWrong = some (.text "check") := by
    rw [given, hmembers]
    rfl
  have hparams : given "params" twiceWrong = some (.array [.int 1]) := by
    rw [given, hmembers]
    rfl
  have hfilled : ∀ v, given "method" twiceWrong = some v → ¬ v.IsFilled := by
    rintro v hv hfilled
    rw [hmethod] at hv
    cases hv
    exact hfilled
  refine ⟨hdigits, hfilled, ⟨⟨_, hparams, by simp⟩, fun e he => ?_⟩,
    handle_classified twiceWrong bare nowhere hdigits hfilled⟩
  cases e with
  | json => exact fun h => h _ scan_twiceWrong
  | version =>
    intro h
    rw [Stage.Fails, given, hmembers] at h
    exact h rfl
  | method =>
    exact fun h => (Json.truthy_toValue_iff (.text "check")).1 (by decide) (h _ hmethod)
  | _ => exact absurd he (by decide)

end Rpc

end FieldCheck
