/-
FieldCheck.Proofs.Rpc.EntryPoints — all ways to check a record agree.

A record can be checked without any service, by a service, with a fault in
place of a bad outcome, in a batch, and by two remote methods. All but the first
begin with a look at the age of the messages, and that may go on to a reload.
Where there is a report behind the check, it has the messages that the reload
left, and not those from before.

`entryPoints_agree` takes a check that has an outcome and says what all the
others do from the same service in the same world. A remote method is run behind
a record in the log; that it makes no difference is `ignoresLog_check`.
-/
import FieldCheck.Proofs.Check.Aggregation
import FieldCheck.Proofs.Rpc.Classification
import FieldCheck.Proofs.Service.FailedReload
import FieldCheck.Proofs.Service.Unseen
import FieldCheck.Proofs.Service.Reporting

namespace FieldCheck

open FieldCheck.Action

namespace Rpc

variable {text : String} {m : Method} {items : List TextItem} {descriptors record : Value}

/-! ## Requests for a check -/

/-- The text spells a request for a method, with some descriptors and a record. -/
structure AsksFor (text : String) (m : Method) (descriptors record : Value) : Prop where
  version : given "jsonrpc" text = some (.text "2.0")
  method : given "method" text = some (.text m.name)
  params : ∃ members, given "params" text = some (.object members)
    ∧ (Json.member "descriptors" members).map Json.toValue = some descriptors
    ∧ (Json.member "data" members).map Json.toValue = some record

theorem AsksFor.paramsOf_eq (h : AsksFor text m descriptors record) :
    ∃ entries, paramsOf text = .dict entries ∧ Value.field "descriptors" entries = some descriptors
      ∧ Value.field "data" entries = some record := by
  obtain ⟨members, hparams, hdescriptors, hdata⟩ := h.params
  refine ⟨Json.toEntries members, ?_, ?_, ?_⟩
  · rw [paramsOf, hparams]
  · rw [Json.field_toEntries, hdescriptors]
  · rw [Json.field_toEntries, hdata]

theorem AsksFor.param_descriptors (h : AsksFor text m descriptors record) :
    Method.param Method.descriptorsKey (paramsOf text) = descriptors := by
  obtain ⟨entries, hparams, hdescriptors, -⟩ := h.paramsOf_eq
  have hfield : (Value.dict entries).field? Method.descriptorsKey = some descriptors := hdescriptors
  rw [Method.param, hparams, hfield, Option.getD_some]

theorem AsksFor.param_data (h : AsksFor text m descriptors record) :
    Method.param Method.dataKey (paramsOf text) = record := by
  obtain ⟨entries, hparams, -, hdata⟩ := h.paramsOf_eq
  have hfield : (Value.dict entries).field? Method.dataKey = some record := hdata
  rw [Method.param, hparams, hfield, Option.getD_some]

theorem toValue_ne_tuple (v : Json) (vs : List Value) : v.toValue ≠ .tuple vs := by
  cases v <;> simp [Json.toValue]

/-- Items that were spelled in JSON are as a method needs them: a group that is
a tuple cannot be spelled. -/
theorem holds_descriptorsSchema {v : Json} (h : v.toValue = .list (items.map TextItem.toValue)) :
    Schema.Holds Method.descriptorsSchema (.list (items.map TextItem.toValue)) := by
  have hspelled : ∀ i ∈ items, ∃ u : Json, u.toValue = i.toValue := by
    cases v with
    | array vs =>
      rw [Json.toValue, Json.toValues_eq_map, Value.list.injEq] at h
      intro i hi
      have hmem : i.toValue ∈ vs.map Json.toValue := by
        rw [h]
        exact List.mem_map_of_mem hi
      obtain ⟨u, -, hu⟩ := List.mem_map.1 hmem
      exact ⟨u, hu⟩
    | _ => simp [Json.toValue] at h
  refine Schema.holds_iff_forall.2 ?_
  intro r hr
  simp only [Method.descriptorsSchema, List.mem_cons, List.not_mem_nil, or_false] at hr
  rcases hr with rfl | rfl
  · simp [Rule.Holds, Kind.holds]
  · simp only [Rule.Holds, Value.list.injEq]
    rintro xs rfl x hx
    obtain ⟨i, hi, rfl⟩ := List.mem_map.1 hx
    refine ⟨?_, trivial⟩
    cases i with
    | single d => exact .inl ⟨rfl, trivial⟩
    | list ds =>
      refine .inr ⟨rfl, ?_, trivial⟩
      simp only [Rule.Holds, TextItem.toValue, Value.list.injEq]
      rintro ys rfl y hy
      obtain ⟨d, -, rfl⟩ := List.mem_map.1 hy
      exact ⟨rfl, trivial⟩
    | tuple ds =>
      -- A tuple would violate the schema, but there is no text for it.
      obtain ⟨u, hu⟩ := hspelled _ hi
      exact absurd hu (toValue_ne_tuple u _)

/-- The methods that check one record. -/
def Method.ChecksOne (m : Method) : Prop := m = .check ∨ m = .require

theorem AsksFor.holds_schema (h : AsksFor text m (.list (items.map TextItem.toValue)) record)
    (hm : m.ChecksOne) : Schema.Holds m.schema (paramsOf text) := by
  obtain ⟨members, hgiven, hspelled, -⟩ := h.params
  obtain ⟨v, -, hv⟩ := Option.map_eq_some_iff.1 hspelled
  obtain ⟨entries, hparams, hdescriptors, hdata⟩ := h.paramsOf_eq
  have hproperty : ∀ w, (Value.dict entries).field? Method.descriptorsKey = some w →
      Schema.Holds Method.descriptorsSchema w := by
    intro w hw
    have hfield : (Value.dict entries).field? Method.descriptorsKey
        = some (.list (items.map TextItem.toValue)) := hdescriptors
    rw [hfield, Option.some.injEq] at hw
    subst hw
    exact holds_descriptorsSchema hv
  have hrequired : ∀ {key : String} {w : Value}, Value.field key entries = some w →
      ∀ es, Value.dict entries = .dict es → (Value.field key es).isSome = true := by
    rintro key w hw es ⟨⟩
    rw [hw, Option.isSome_some]
  rw [hparams]
  rcases hm with rfl | rfl <;>
    exact ⟨rfl, hproperty, hrequired hdescriptors, hrequired hdata, trivial⟩

/-- A request for a check of one record goes on to its method. -/
theorem AsksFor.handle_eq (h : AsksFor text m (.list (items.map TextItem.toValue)) record)
    (hm : m.ChecksOne) (s : Service) (w : World) :
    handle text s w = answerAccepted (idOf text) m (paramsOf text) s (dispatched m w) := by
  have hmethod : ¬ Stage.method.Fails text s w := by
    intro hfails
    refine (Json.truthy_toValue_iff (.text m.name)).1 ?_ (hfails _ h.method)
    rcases hm with rfl | rfl <;> decide
  have hparams : ¬ Stage.params.Fails text s w := by
    rintro ⟨v, hv, hobject⟩
    obtain ⟨members, hgiven, -⟩ := h.params
    rw [hgiven, Option.some.injEq] at hv
    exact hobject members hv.symm
  have hschema : ¬ Stage.schema.Fails text s w := by
    rintro ⟨m', hm', hrefused⟩
    obtain rfl := name_injective (h.method.symm.trans hm')
    exact hrefused (h.holds_schema hm)
  obtain ⟨m', hm', hhandle⟩ := handle_of_schema (fun hfails => hfails h.version) hmethod hparams
    (fun hfails => hfails m h.method) hschema
  obtain rfl := name_injective (h.method.symm.trans hm')
  exact hhandle

/-! ## Answers -/

variable {s s' : Service} {w w' : World} {o : Outcome} {r : Report}

/-- The record in the log that a remote method is run behind has no influence. -/
theorem check_dispatched (m : Method)
    (hcheck : Service.check descriptors record s w = (.ok o, s', w')) :
    ∃ v, Service.check descriptors record s (dispatched m w) = (.ok o, s', v) := by
  obtain ⟨log, hlog⟩ := (Service.ignoresLog_check descriptors record).of_eq hcheck _
  exact ⟨_, hlog⟩

theorem handle_check (h : AsksFor text .check (.list (items.map TextItem.toValue)) record)
    (hcheck : Service.check (.list (items.map TextItem.toValue)) record s w = (.ok o, s', w')) :
    ∃ v, handle text s w = (.ok ⟨idOf text, .ok o.toJson⟩, s', v) := by
  obtain ⟨v, hv⟩ := check_dispatched .check hcheck
  refine ⟨v, ?_⟩
  rw [h.handle_eq (.inl rfl)]
  apply answerAccepted_of_ok
  rw [Method.run, h.param_descriptors, h.param_data, bind_of_ok _ hv]
  rfl

theorem handle_require (h : AsksFor text .require (.list (items.map TextItem.toValue)) record)
    (hcheck : Service.check (.list (items.map TextItem.toValue)) record s w = (.ok o, s', w'))
    (hreport : s'.ReportsAs o r) :
    ∃ v, handle text s w = (.ok ⟨idOf text, .ok r.toJson⟩, s', v) := by
  obtain ⟨v, hv⟩ := check_dispatched .require hcheck
  obtain ⟨v', hv'⟩ := hreport v
  refine ⟨v', ?_⟩
  rw [h.handle_eq (.inr rfl)]
  apply answerAccepted_of_ok
  rw [Method.run, h.param_descriptors, h.param_data, bind_of_ok _ hv, bind_of_ok _ hv']
  rfl

/-! ## Agreement -/

/-- Where a check of a service has an outcome, a check without a service has the
same one, and a service that it leaves behind reports on it with its messages of
then. To require the fields succeeds exactly for a good outcome, and fails with
that report for any other one. A batch of the record and the two remote methods
answer with the same outcome and the same report. -/
theorem entryPoints_agree {items : List TextItem} {record : Value} {s s' : Service} {w w' : World}
    {o : Outcome} (hs : Service.Reachable s)
    (hgiven : ∀ m ∈ s.injected, ∃ t, (m.get Messages.reportKey).result = .ok (.text t))
    (hcheck : Service.check (.list (items.map TextItem.toValue)) record s w = (.ok o, s', w')) :
    (FieldCheck.check (.list (items.map TextItem.toValue)) record).result = .ok o
      ∧ ∃ r, s'.ReportsAs o r
        ∧ ((o.isOk = true ∧ r = .ok
            ∧ ∃ v, Service.require (.list (items.map TextItem.toValue)) record s w = (.ok (), s', v))
          ∨ (o.isOk = false ∧ ∃ t, r = .error t
            ∧ ∃ v, Service.require (.list (items.map TextItem.toValue)) record s w
              = (.error (.fieldsRequired o.labels t), s', v)))
        ∧ (∀ fields id, Service.recordId fields record = .ok id →
          ∃ v, Service.batch (.list [record]) (.list (items.map TextItem.toValue)) fields s w
            = (.ok [⟨id, o, r⟩], s', v))
        ∧ (∀ text, AsksFor text .check (.list (items.map TextItem.toValue)) record →
          ∃ v, handle text s w = (.ok ⟨idOf text, .ok (.object [("ok", .bool o.isOk),
            ("missing_or_invalid", Json.texts o.labels)])⟩, s', v))
        ∧ ∀ text, AsksFor text .require (.list (items.map TextItem.toValue)) record →
          ∃ v, handle text s w = (.ok ⟨idOf text, .ok r.toJson⟩, s', v) := by
  have hinjected : s'.injected = s.injected := by
    have hsame := Service.keeps_check Service.ignoresCalls_setup
      (.list (items.map TextItem.toValue)) record s w
    rw [hcheck] at hsame
    exact congrArg (fun p => p.2.2) hsame
  have hsource : Service.HasSource s' := by
    have hcall := hs.hasSource.beginsWithLook
      (Service.beginsWithLook_check (.list (items.map TextItem.toValue)) record) w
    rw [hcheck] at hcall
    exact hcall
  -- The front of the report is that of `s'`, since the look may have replaced the messages of `s`.
  obtain ⟨front, hfront⟩ := Service.exists_front hsource (by rw [hinjected]; exact hgiven)
  have hreport : s'.ReportsAs o _ := hfront o
  obtain ⟨v, hrequire⟩ := Service.require_of_check hcheck hreport
  refine ⟨Service.result_of_check hcheck, _, hreport, ?_, fun fields id hid =>
    Service.batch_of_check hcheck hreport hid, fun text h => handle_check h hcheck, fun text h =>
    handle_require h hcheck hreport⟩
  by_cases hok : o.isOk = true
  · rw [if_pos hok] at hrequire
    exact .inl ⟨hok, if_pos hok, v, hrequire⟩
  · rw [if_neg hok, if_neg hok] at hrequire
    exact .inr ⟨Bool.eq_false_iff.2 hok, _, if_neg hok, v, hrequire⟩

/-- A request for a check of a record that lacks a name. -/
def demand : String :=
  "\x7b\"jsonrpc\":\"2.0\",\"method\":\"require_fields\",\"params\":\x7b\"descriptors\":[\"name\",[\"name\",\"*b\"]],\"data\":\x7b\"b\":0\x7d\x7d\x7d"

def demandItems : List TextItem := [.single "name", .list ["name", "*b"]]

def demandParams : List (String × Json) :=
  [("descriptors", .array [.text "name", .array [.text "name", .text "*b"]]),
    ("data", .object [("b", .int 0)])]

theorem scan_demand : Json.scan demand.toList = .ok (.object [("jsonrpc", .text "2.0"),
    ("method", .text "require_fields"), ("params", .object demandParams)]) := by
  simp only [demand, demandParams, String.reduceToList]
  rfl

theorem asksFor_demand :
    AsksFor demand .require (.list (demandItems.map TextItem.toValue)) sparse := by
  have hmembers := membersOf_of_scan scan_demand
  refine ⟨?_, ?_, demandParams, ?_, rfl, rfl⟩
  · rw [given, hmembers]
    rfl
  · rw [given, hmembers]
    rfl
  · rw [given, hmembers]
    rfl

/-- A world with another message in the catalog, at a time when a check looks for it. -/
def relabelled : World :=
  Service.shelf (.dict [(.text Messages.warningsSection,
    .dict [(.text Messages.reportKey, .text "Missing: ")])]) Service.later

theorem result_demand : (FieldCheck.check (.list (demandItems.map TextItem.toValue)) sparse).result
    = .ok ⟨["name"]⟩ := by
  have hitems : Lists (.list (demandItems.map TextItem.toValue)) demandItems := rfl
  have hrecord : ∀ i ∈ demandItems, i.Evaluable sparse := by
    simp [demandItems, TextItem.Evaluable, TextItem.members, isMet_name_sparse, isMet_b_sparse]
  rw [result_check hitems hrecord]
  simp [demandItems, TextItem.Fails, TextItem.members, TextItem.label, Passes, isMet_name_sparse,
    isMet_b_sparse]

open Service (shelved later) in
/-- The check goes on to a reload, and the report behind it has the new message. -/
theorem check_relabelled : ∃ s' w',
    Service.check (.list (demandItems.map TextItem.toValue)) sparse shelved relabelled
      = (.ok ⟨["name"]⟩, s', w') ∧ s'.engine = ⟨.catalog [(Messages.reportKey, "Missing: ")]⟩ := by
  have hstale : Service.FindsStale shelved relabelled (shelved.looked later) _ :=
    Service.findsStale_shelf _
  have hreload : ∃ s' w', Service.reload (shelved.looked later) (relabelled.logged
      [⟨.info, .service, "Message catalog stale (2000s > 1800s), reloading"⟩]) = (.ok (), s', w')
      ∧ s'.engine = ⟨.catalog [(Messages.reportKey, "Missing: ")]⟩ := ⟨_, _, rfl, rfl⟩
  obtain ⟨s', w', hreload, hmessages⟩ := hreload
  refine ⟨s', w'.logged (FieldCheck.check (.list (demandItems.map TextItem.toValue)) sparse).log,
    ?_, hmessages⟩
  rw [Service.check, bind_of_ok _ ((Service.look_of_findsStale hstale).trans hreload), ofTraced,
    result_demand]

open Service (shelved) in
theorem entryPoints_agree_relabelled :
    Service.Reachable shelved
      ∧ (∀ m ∈ shelved.injected, ∃ t, (m.get Messages.reportKey).result = .ok (.text t))
      ∧ AsksFor demand .require (.list (demandItems.map TextItem.toValue)) sparse
      ∧ ∃ s' w', Service.check (.list (demandItems.map TextItem.toValue)) sparse shelved relabelled
          = (.ok ⟨["name"]⟩, s', w')
        ∧ ∃ v, handle demand shelved relabelled = (.ok ⟨idOf demand, .ok (.object
          [("status", .text "error"), ("text", .text "Missing: name")])⟩, s', v) := by
  have hgiven : ∀ m ∈ shelved.injected, ∃ t, (m.get Messages.reportKey).result = .ok (.text t) := by
    intro m hm
    cases hm
  obtain ⟨s', w', hcheck, hmessages⟩ := check_relabelled
  obtain ⟨-, r, hreport, -, -, -, hrequire⟩ :=
    entryPoints_agree Service.reachable_shelved hgiven hcheck
  have htext : (Service.report ⟨["name"]⟩ s' w').1 = .ok (.error "Missing: name") := by
    rw [Service.report, state_bind, hmessages]
    rfl
  obtain ⟨v, hv⟩ := hreport w'
  rw [hv] at htext
  cases htext
  exact ⟨Service.reachable_shelved, hgiven, asksFor_demand, s', w', hcheck,
    hrequire demand asksFor_demand⟩

end Rpc

end FieldCheck
