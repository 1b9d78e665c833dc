/-
FieldCheck.Proofs.Service.Wording — reports and messages have one wording.

A service looks messages up in one source, and its engine makes reports with
another one. Both are replaced by a reload, which can fail in between, and a call
may look, reload and report in turn.

`LatestCatalog` follows a service from its start and keeps track of the catalog of
the latest load that brought messages. A call does nothing to the messages, or what
a reload does to them (`Call.course`, `Call.Reloads.follows`), and a reload replaces
them exactly if its load brings some (`messages_of_obtains`,
`messages_of_not_obtains`). So the messages of a service are always those of that
catalog (`LatestCatalog.ofCatalog_eq`).

The reports within a call are made behind the only look that can go on to a reload,
so they have the wording with which the call leaves the service
(`result_report_of_batchList`, `result_report_of_require`).
-/
import FieldCheck.Proofs.Service.Course
import FieldCheck.Proofs.Service.FailedReload
import FieldCheck.Proofs.Service.Faults

namespace FieldCheck

open FieldCheck.Action

namespace Service

variable {s s' : Service} {w w' : World} {catalog : Value}

/-! ## Loads that bring messages -/

/-- A load for the service brings a catalog, and there are messages in it. -/
def Obtains (s : Service) (w : World) (catalog : Value) : Prop :=
  (Catalogs.load s.locale s.catalogs w).1 = .ok catalog ∧ ∃ m, Messages.ofCatalog catalog = .ok m

theorem result_loadMessages (s : Service) (w : World) :
    (loadMessages s w).1 = (Catalogs.load s.locale s.catalogs w).1 >>= Messages.ofCatalog := by
  rw [loadMessages, state_bind]
  rcases hload : Catalogs.load s.locale s.catalogs w with ⟨f | document, c, w'⟩
  · rw [bind_of_error _ (onCatalogs_apply hload)]
    rfl
  · rw [bind_of_ok _ (onCatalogs_apply hload)]
    dsimp only [bind, Except.bind]
    cases Messages.ofCatalog document <;> rfl

/-- A load that brings messages replaces those of the service. -/
theorem messages_of_obtains (hown : s.injected = none) (h : s.Obtains w catalog) :
    Messages.ofCatalog catalog = .ok (prepare s w).2.1.messages := by
  obtain ⟨hload, m, hm⟩ := h
  have hresult : (loadMessages s w).1 = .ok m := by rw [result_loadMessages, hload]; exact hm
  rcases hmessages : loadMessages s w with ⟨r, s₁, w₁⟩
  rw [hmessages] at hresult
  obtain rfl : r = .ok m := hresult
  rw [prepare_eq hown, bind_of_ok _ hmessages]
  exact hm

/-- Where a load brings no messages, the service fails and keeps those that it had. -/
theorem messages_of_not_obtains (hown : s.injected = none)
    (h : ∀ catalog, ¬ s.Obtains w catalog) :
    (∃ f, (prepare s w).1 = .error f) ∧ (prepare s w).2.1.messages = s.messages := by
  obtain ⟨w', -, ⟨-, f, hp⟩ | ⟨-, f, hp⟩ | ⟨-, texts, hp⟩⟩ := prepare_cases hown w
  · rw [hp]
    exact ⟨⟨f, rfl⟩, rfl⟩
  · rw [hp]
    exact ⟨⟨f, rfl⟩, rfl⟩
  · rw [prepare_eq hown] at hp
    obtain ⟨m, s₁, w₁, hmessages, -⟩ := of_bind_ok hp
    have hresult := result_loadMessages s w
    rw [hmessages] at hresult
    cases hload : (Catalogs.load s.locale s.catalogs w).1 with
    | error f =>
      rw [hload] at hresult
      cases hresult
    | ok document =>
      rw [hload] at hresult
      exact absurd ⟨hload, m, hresult.symm⟩ (h document)

/-! ## The latest catalog -/

/-- A reload in the course of a call brings a catalog with messages. -/
def Call.Obtains (call : Call) (s : Service) (w : World) (catalog : Value) : Prop :=
  ∃ s₀ w₀, call.Reloads s w s₀ w₀ ∧ s₀.Obtains w₀ catalog

/-- The services without a source of their own that calls lead to, each with the
catalog of the latest load on the way that brought messages. -/
inductive LatestCatalog : Service → Value → Prop
  | start {config locale : Option String} {c : Catalogs} {w w' : World} {s : Service}
      {catalog : Value} (hc : Catalogs.ofConfiguration config w = .ok c)
      (h : Service.start config none (localeValue locale) w = (.ok s, w'))
      (hcatalog : (unready c none (localeValue locale)).Obtains w catalog) :
      LatestCatalog s catalog
  | taken {s s' : Service} {w w' : World} {r : Except Fault Unit} {before catalog : Value}
      (h : LatestCatalog s before) (call : Call) (hcall : call.run s w = (r, s', w'))
      (hcatalog : call.Obtains s w catalog) : LatestCatalog s' catalog
  | kept {s s' : Service} {w w' : World} {r : Except Fault Unit} {catalog : Value}
      (h : LatestCatalog s catalog) (call : Call) (hcall : call.run s w = (r, s', w'))
      (hnone : ∀ other, ¬ call.Obtains s w other) : LatestCatalog s' catalog

theorem LatestCatalog.reachable (h : LatestCatalog s catalog) : Reachable s := by
  induction h with
  | start _ h => exact .start h
  | taken _ call hcall _ ih => exact ih.call call hcall
  | kept _ call hcall _ ih => exact ih.call call hcall

theorem LatestCatalog.injected (h : LatestCatalog s catalog) : s.injected = none := by
  induction h with
  | start _ h => exact injected_of_start h
  | taken _ call hcall _ ih => exact (injected_of_run hcall).trans ih
  | kept _ call hcall _ ih => exact (injected_of_run hcall).trans ih

/-- A service that was started has got its messages from a catalog, and a call
brings another one or none. -/
theorem Reachable.exists_latestCatalog (h : Reachable s) (hown : s.injected = none) :
    ∃ catalog, LatestCatalog s catalog := by
  induction h with
  | @start config locale provider w w' s hstart =>
    obtain rfl : provider = none := (injected_of_start hstart).symm.trans hown
    obtain ⟨c, hc, hprepare⟩ := exists_of_start hstart
    by_cases hobtains : ∃ catalog, (unready c none (localeValue locale)).Obtains w catalog
    · obtain ⟨catalog, hcatalog⟩ := hobtains
      exact ⟨catalog, .start hc hstart hcatalog⟩
    · obtain ⟨⟨f, hf⟩, -⟩ := messages_of_not_obtains (s := unready c none (localeValue locale)) rfl
        fun catalog hcatalog => hobtains ⟨catalog, hcatalog⟩
      rw [hprepare] at hf
      cases hf
  | @call s s' w w' r _ call hcall ih =>
    obtain ⟨before, hbefore⟩ := ih ((injected_of_run hcall).symm.trans hown)
    by_cases hobtains : ∃ catalog, call.Obtains s w catalog
    · obtain ⟨catalog, hcatalog⟩ := hobtains
      exact ⟨catalog, .taken hbefore call hcall hcatalog⟩
    · exact ⟨before, .kept hbefore call hcall fun other hother => hobtains ⟨other, hother⟩⟩

/-! ## Messages of the latest catalog -/

theorem LatestCatalog.ofCatalog_eq (h : LatestCatalog s catalog) :
    Messages.ofCatalog catalog = .ok s.messages := by
  induction h with
  | @start config locale c w w' s catalog hc hstart hcatalog =>
    obtain ⟨c', hc', hprepare⟩ := exists_of_start hstart
    obtain rfl : c = c' := Except.ok.inj (hc.symm.trans hc')
    rw [messages_of_obtains rfl hcatalog, hprepare]
  | @taken s s' w w' r before catalog h call hcall hcatalog ih =>
    obtain ⟨s₀, w₀, hreloads, hobtains⟩ := hcatalog
    have hs := h.reachable.isConfigured
    -- The call idles behind this reload, so there is no other one that could replace the messages.
    have hfollows := hreloads.follows hs
    rw [hcall] at hfollows
    rw [messages_of_obtains ((hreloads.injected hs).trans h.injected) hobtains,
      hfollows.messages_eq]
  | @kept s s' w w' r catalog h call hcall hnone ih =>
    have hs := h.reachable.isConfigured
    have hcourse := call.course hs w
    rw [hcall] at hcourse
    rcases hcourse with hidle | ⟨s₀, w₀, hreloads, hidle, hfollows⟩
    · rw [ih, hidle.messages_eq]
    · -- The reload brought nothing, so the messages are the ones from before it.
      have hkept := messages_of_not_obtains ((hreloads.injected hs).trans h.injected)
        fun other hother => hnone other ⟨s₀, w₀, hreloads, hother⟩
      rw [ih, hfollows.messages_eq, hkept.2, hidle.messages_eq]

/-! ## One wording -/

/-- The service says a text for the message under the report key and puts it in
front of every report on an outcome that is not good. -/
structure SpeaksWith (s : Service) (front : String) : Prop where
  message : ∀ w, ∃ w', Service.message (.text Messages.reportKey) s w = (.ok (.text front), s, w')
  report : ∀ o, o.isOk = false →
    s.ReportsAs o (.error (front ++ labelSeparator.intercalate o.labels))

theorem HasSource.speaksWith (h : HasSource s) {front : String}
    (hfront : (s.messages.get Messages.reportKey).result = .ok (.text front)) :
    s.SpeaksWith front := by
  constructor
  · intro w
    refine ⟨w.logged (s.messages.get Messages.reportKey).log, ?_⟩
    rw [Service.message, state_bind, Messages.find_text, ofTraced, hfront]
  · intro o ho
    refine reportsAs_of_result ?_
    rw [h.result_report hfront, ho]
    rfl

/-! ## Texts of calls -/

theorem result_of_report {o : Outcome} {r : Report} (h : report o s w = (.ok r, s', w')) :
    (s.engine.report o).result = .ok r := congrArg Prod.fst h

theorem state_of_report {o : Outcome} {r : Except Fault Report}
    (h : report o s w = (r, s', w')) : s' = s := by
  have hsame := keeps_service (keeps_withoutLog_report o) s w
  rw [h] at hsame
  exact hsame

/-- The result for a record is made with the engine that the check leaves. -/
theorem result_report_of_batchOne {descriptors fields record : Value} {b : BatchResult}
    (h : batchOne descriptors fields record s w = (.ok b, s', w')) :
    (s'.engine.report b.outcome).result = .ok b.report := by
  obtain ⟨o, s₁, w₁, -, h⟩ := of_bind_ok h
  obtain ⟨id, s₂, w₂, -, h⟩ := of_bind_ok h
  obtain ⟨r, s₃, w₃, hreport, h⟩ := of_bind_ok h
  cases h
  obtain rfl := state_of_report hreport
  exact result_of_report hreport

/-- All results of a part of a batch are made with the engine that is left. The
looks for later records come too early to change it. -/
theorem result_report_of_batchList {descriptors fields : Value} {records : List Value}
    {results : List BatchResult} (hs : IsConfigured s)
    (h : batchList records descriptors fields s w = (.ok results, s', w')) {b : BatchResult}
    (hb : b ∈ results) : (s'.engine.report b.outcome).result = .ok b.report := by
  induction records generalizing s w results with
  | nil =>
    cases h
    cases hb
  | cons record rest ih =>
    obtain ⟨first, s₁, w₁, hone, h⟩ := of_bind_ok h
    have hidle := batchList_idles_behind hs hone rest
    have hsame := keeps_batchOne ignoresCalls_setup descriptors fields record s w
    rw [hone] at hsame
    obtain ⟨others, s₂, w₂, hothers, h⟩ := of_bind_ok h
    cases h
    rw [batchList, hothers] at hidle
    rcases List.mem_cons.1 hb with rfl | hb
    · rw [hidle.engine_eq]
      exact result_report_of_batchOne hone
    · exact ih (hs.of_setup hsame) hothers hb

/-- What a failed demand says is the report that is made with the engine that is left. -/
theorem result_report_of_require {descriptors record : Value} {labels : List String}
    {text : String} (hs : IsConfigured s)
    (hreport : ∀ o, ∃ r, (s'.engine.report o).result = .ok r)
    (h : require descriptors record s w = (.error (.fieldsRequired labels text), s', w')) :
    ∃ o : Outcome, o.isOk = false ∧ o.labels = labels
      ∧ (s'.engine.report o).result = .ok (.error text) := by
  rcases of_bind_error h with hcheck | ⟨o, s₁, w₁, -, h⟩
  · -- A check can fail, but not with a verdict on the record.
    have hverdict := (failsOnly_check_verdict descriptors record s w hs.hasLocale).2
      (.fieldsRequired labels text) (by rw [hcheck])
    cases hverdict
  split at h
  · cases h
  rename_i hbad
  rcases of_bind_error h with hfail | ⟨r, s₂, w₂, hmade, h⟩
  · obtain rfl := state_of_report hfail
    obtain ⟨r, hr⟩ := hreport o
    rw [report, state_bind, ofTraced, hr] at hfail
    cases hfail
  · obtain rfl := state_of_report hmade
    cases r with
    | ok => cases h
    | error text' =>
      cases h
      exact ⟨o, by simpa using hbad, rfl, result_of_report hmade⟩

/-- A call of a service in a world leaves a service behind, and it came with a
report on the labels of an outcome that is not good: in a result of a batch, or in
the fault of a demand. -/
inductive Call.Tells (s : Service) (w : World) (s' : Service) :
    Call → List String → Report → Prop
  | batch {records descriptors fields : Value} {results : List BatchResult} {b : BatchResult}
      {w' : World} (h : Service.batch records descriptors fields s w = (.ok results, s', w'))
      (hb : b ∈ results) (hbad : b.outcome.isOk = false) :
      Tells s w s' (.batch records descriptors fields) b.outcome.labels b.report
  | batchFile {location descriptors fields : Value} {results : List BatchResult} {b : BatchResult}
      {w' : World} (h : Service.batchFile location descriptors fields s w = (.ok results, s', w'))
      (hb : b ∈ results) (hbad : b.outcome.isOk = false) :
      Tells s w s' (.batchFile location descriptors fields) b.outcome.labels b.report
  | require {descriptors record : Value} {labels : List String} {text : String} {w' : World}
      (h : Service.require descriptors record s w
        = (.error (.fieldsRequired labels text), s', w')) :
      Tells s w s' (.require descriptors record) labels (.error text)

theorem Call.Tells.report_eq {call : Call} {labels : List String} {r : Report} {front : String}
    (h : call.Tells s w s' labels r) (hs : IsConfigured s)
    (hfront : ∀ o, (s'.engine.report o).result
      = .ok (if o.isOk then .ok else .error (front ++ labelSeparator.intercalate o.labels))) :
    r = .error (front ++ labelSeparator.intercalate labels) := by
  have hmade : ∀ {o : Outcome}, o.isOk = false → (s'.engine.report o).result = .ok r →
      r = .error (front ++ labelSeparator.intercalate o.labels) := by
    intro o hbad hr
    rw [hfront, hbad] at hr
    exact (Except.ok.inj hr).symm
  cases h with
  | batch h hb hbad =>
    obtain ⟨rs, s₁, w₁, hrs, h⟩ := of_bind_ok h
    have hsame : s = s₁ := congrArg (·.2.1) hrs
    exact hmade hbad (result_report_of_batchList (hsame ▸ hs) h hb)
  | batchFile h hb hbad =>
    obtain ⟨rs, s₁, w₁, hrs, h⟩ := of_bind_ok h
    have hsame := (Records.eq_of_loadAt hrs).1
    exact hmade hbad (result_report_of_batchList (hsame ▸ hs) h hb)
  | require h =>
    obtain ⟨o, hbad, rfl, hr⟩ := result_report_of_require hs (fun o => ⟨_, hfront o⟩) h
    exact hmade hbad hr

/-- Every service without a source of its own has a latest catalog, and what it
says is in the words of that catalog: what is looked up, every report, and every
text of the call that left it behind. -/
theorem texts_of_latestCatalog :
    (∀ s, (∃ catalog, LatestCatalog s catalog) ↔ Reachable s ∧ s.injected = none)
      ∧ ∀ s catalog, LatestCatalog s catalog → ∃ m front, Messages.ofCatalog catalog = .ok m
        ∧ (m.get Messages.reportKey).result = .ok (.text front) ∧ s.SpeaksWith front
        ∧ ∀ (call : Call) (before : Service) (w : World) (labels : List String) (r : Report),
          Reachable before → call.Tells before w s labels r →
            r = .error (front ++ labelSeparator.intercalate labels) := by
  refine ⟨fun s => ⟨?_, fun h => h.1.exists_latestCatalog h.2⟩, fun s catalog h => ?_⟩
  · rintro ⟨catalog, h⟩
    exact ⟨h.reachable, h.injected⟩
  · have hsource := h.reachable.hasSource
    obtain ⟨texts, htexts⟩ := hsource.loaded h.injected
    obtain ⟨front, hfront⟩ := Messages.get_reportKey_catalog texts
    rw [← htexts] at hfront
    exact ⟨s.messages, front, h.ofCatalog_eq, hfront, hsource.speaksWith hfront,
      fun call before w labels r hbefore htells =>
        htells.report_eq hbefore.isConfigured (hsource.result_report hfront)⟩

/-- A catalog with a text for reports. -/
def worded (front : String) : Value :=
  .dict [(.text Messages.warningsSection, .dict [(.text Messages.reportKey, .text front)])]

theorem latestCatalog_shelved : LatestCatalog shelved (.dict []) := by
  obtain ⟨w', h⟩ := start_shelved
  exact .start rfl h ⟨rfl, _, rfl⟩

/-- A demand comes upon a catalog that was changed since the start. -/
theorem require_worded : ∃ s w',
    require (.list [.text "name"]) .null shelved (shelf (worded "Missing: ") later)
      = (.error (.fieldsRequired ["name"] "Missing: name"), s, w') := by
  have hreload : ∃ s w', reload (shelved.looked later) ((shelf (worded "Missing: ") later).logged
      [⟨.info, .service, "Message catalog stale (2000s > 1800s), reloading"⟩]) = (.ok (), s, w')
      ∧ s.engine = ⟨.catalog [(Messages.reportKey, "Missing: ")]⟩ := ⟨_, _, rfl, rfl⟩
  obtain ⟨s, w', hreload, hengine⟩ := hreload
  have hlook := (look_of_findsStale (findsStale_shelf (worded "Missing: "))).trans hreload
  have hoc : (FieldCheck.check (.list [.text "name"]) .null).result = .ok ⟨["name"]⟩ := rfl
  have hcheck : ∃ w', check (.list [.text "name"]) .null shelved (shelf (worded "Missing: ") later)
      = (.ok ⟨["name"]⟩, s, w') := ⟨_, by rw [check, bind_of_ok _ hlook, ofTraced, hoc]⟩
  obtain ⟨w₁, hcheck⟩ := hcheck
  have hreport : s.ReportsAs ⟨["name"]⟩ (.error "Missing: name") :=
    reportsAs_of_result (by rw [hengine]; rfl)
  obtain ⟨v, hv⟩ := require_of_check hcheck hreport
  exact ⟨s, v, hv⟩

/-- Behind a demand that went on to a reload, the service speaks as the demand did. -/
theorem texts_of_latestCatalog_worded : LatestCatalog shelved (.dict []) ∧ Reachable shelved
    ∧ ∃ s, LatestCatalog s (worded "Missing: ") ∧ s.SpeaksWith "Missing: "
      ∧ (Call.require (.list [.text "name"]) .null).Tells shelved
        (shelf (worded "Missing: ") later) s ["name"] (.error "Missing: name")
      ∧ Report.error "Missing: name"
        = .error ("Missing: " ++ labelSeparator.intercalate ["name"]) := by
  obtain ⟨s, w', hrequire⟩ := require_worded
  have hlatest : LatestCatalog s (worded "Missing: ") :=
    .taken latestCatalog_shelved (.require (.list [.text "name"]) .null) hrequire
      ⟨_, _, .require (findsStale_shelf _), rfl, _, rfl⟩
  obtain ⟨m, front, hm, hfront, hspeaks, htells⟩ := texts_of_latestCatalog.2 s _ hlatest
  obtain rfl : .catalog [(Messages.reportKey, "Missing: ")] = m := Except.ok.inj hm
  obtain rfl : "Missing: " = front := Value.text.inj (Except.ok.inj hfront)
  exact ⟨latestCatalog_shelved, reachable_shelved, s, hlatest, hspeaks, .require hrequire,
    htells _ _ _ _ _ reachable_shelved (.require hrequire)⟩

end Service

end FieldCheck
