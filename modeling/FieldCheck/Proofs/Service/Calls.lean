/-
FieldCheck.Proofs.Service.Calls — the calls of a service, and what they lead to.

A `Call` is one use of a service with all its arguments. A service is
`Reachable` when some calls lead to it from one that was started, with a
configuration and a locale of any kind. Between two calls the world may
change in any way, so each call finds a world of its own.

No call changes the settings, the locale, the source of messages that was
given, or the clock. `Keeps` says so for every reading of the service and the
world that `IgnoresCalls`, along the definitions and once for all readings.
What is true of the settings of a service that was started is therefore true
of every reachable one (`Reachable.isConfigured`).
-/
import FieldCheck.Proofs.Schema
import FieldCheck.Proofs.Service.Reloading
import FieldCheck.Service.Batch

namespace FieldCheck

open FieldCheck.Action

/-! ## The network -/

/-- Getting records from their location changes the world by a request alone. -/
theorem Records.keeps_loadAt {σ γ : Type} {p : σ → World → γ}
    (hcalled : ∀ s w call, p s (w.called call) = p s w) (location : Value) :
    Keeps p (Records.loadAt location) := by
  unfold Records.loadAt
  split
  · refine (keeps_ofExcept p _).bind fun u => (keeps_world p).bind fun w => ?_
    split
    · exact keeps_ofExcept p _
    split
    · exact (keeps_changeWorld fun s w => hcalled s w _).bind fun _ => keeps_ofExcept p _
    · exact keeps_fail p _
  · exact keeps_fail p _

theorem Records.eq_of_loadAt {σ : Type} {location : Value} {s s' : σ} {w w' : World}
    {r : Except Fault (List Value)} (h : Records.loadAt location s w = (r, s', w')) :
    s' = s ∧ w'.clock = w.clock := by
  have hsame := Records.keeps_loadAt (p := fun (s : σ) _ => s) (fun _ _ _ => rfl) location s w
  have hclock := Records.keeps_loadAt (p := fun (_ : σ) w => w.clock) (fun _ _ _ => rfl) location s w
  rw [h] at hsame hclock
  exact ⟨hsame, hclock⟩

namespace Service

/-! ## What calls leave as it is -/

/-- A reading that nothing has an influence on that the actions of a service do. -/
structure IgnoresCalls {γ : Type} (p : Service → World → γ) : Prop where
  logged : ∀ s w rs, p s (w.logged rs) = p s w
  called : ∀ s w call, p s (w.called call) = p s w
  files : ∀ s w files, p s { w with files := files } = p s w
  loadedAt : ∀ s w times, p { s with catalogs := { s.catalogs with loadedAt := times } } w = p s w
  messages : ∀ s w m e, p { s with messages := m, engine := e } w = p s w
  looked : ∀ s w now, p (s.looked now) w = p s w

variable {γ : Type} {p : Service → World → γ}

theorem keeps_onCatalogs_load (hp : IgnoresCalls p) (asked : Value) :
    Keeps p (onCatalogs (Catalogs.load asked)) := by
  intro s w
  have htraffic : Catalogs.IgnoresTraffic fun c w => p { s with catalogs := c } w :=
    ⟨fun c w rs => hp.logged _ w rs, fun c w call => hp.called _ w call,
      fun c w files => hp.files _ w files⟩
  exact Catalogs.keeps_load htraffic (fun c w times => hp.loadedAt { s with catalogs := c } w times)
    asked s.catalogs w

theorem keeps_prepare (hp : IgnoresCalls p) : Keeps p prepare := by
  have huse : ∀ m, Keeps p (useMessages m) := fun m =>
    (keeps_changeState fun s v => hp.messages s v m s.engine).bind fun _ =>
      (keeps_changeState fun s v => hp.messages s v s.messages ⟨s.messages⟩).bind fun _ =>
        (keeps_world p).bind fun w => keeps_changeState fun s v => hp.looked s v w.clock
  have hload : Keeps p loadMessages := by
    refine (keeps_state p).bind fun s => (keeps_onCatalogs_load hp _).bind fun document => ?_
    exact (keeps_ofExcept p _).bind fun m => (keeps_log hp.logged _ _ _).bind fun _ =>
      keeps_pure p m
  refine (keeps_state p).bind fun s => ?_
  cases s.injected with
  | some m => exact huse m
  | none => exact hload.bind huse

theorem keeps_reload (hp : IgnoresCalls p) : Keeps p reload :=
  (keeps_prepare hp).bind fun _ => (keeps_state p).bind fun _ => keeps_log hp.logged _ _ _

theorem keeps_look (hp : IgnoresCalls p) : Keeps p look := by
  have hold : Keeps p reloadIfOld := by
    refine (keeps_state p).bind fun s => (keeps_world p).bind fun w => ?_
    dsimp only
    cases s.age w.clock with
    | none => exact keeps_pure p ()
    | some age =>
      dsimp only
      split
      · exact (keeps_ofExcept p _).bind fun m => (keeps_log hp.logged _ _ _).bind fun _ =>
          keeps_reload hp
      · exact keeps_pure p ()
  refine (keeps_state p).bind fun s => (keeps_world p).bind fun w => ?_
  split
  · exact keeps_pure p ()
  · exact (keeps_changeState fun s v => hp.looked s v w.clock).bind fun _ => hold

theorem keeps_check (hp : IgnoresCalls p) (descriptors record : Value) :
    Keeps p (check descriptors record) :=
  (keeps_look hp).bind fun _ => keeps_ofTraced hp.logged _

theorem keeps_report (hp : IgnoresCalls p) (o : Outcome) : Keeps p (report o) :=
  (keeps_state p).bind fun _ => keeps_ofTraced hp.logged _

theorem keeps_require (hp : IgnoresCalls p) (descriptors record : Value) :
    Keeps p (require descriptors record) := by
  refine (keeps_check hp descriptors record).bind fun o => ?_
  split
  · exact keeps_pure p ()
  · exact (keeps_report hp o).bind fun r => keeps_ofExcept p _

theorem keeps_batchOne (hp : IgnoresCalls p) (descriptors fields record : Value) :
    Keeps p (batchOne descriptors fields record) :=
  (keeps_check hp descriptors record).bind fun _ => (keeps_ofExcept p _).bind fun _ =>
    (keeps_report hp _).bind fun _ => keeps_pure p _

theorem keeps_batchList (hp : IgnoresCalls p) (records : List Value) (descriptors fields : Value) :
    Keeps p (batchList records descriptors fields) :=
  Keeps.forEach (keeps_batchOne hp descriptors fields) records

/-! ## Calls -/

/-- A use of a service. -/
inductive Call where
  | check (descriptors record : Value)
  | require (descriptors record : Value)
  | report (o : Outcome)
  | message (key : Value)
  | discover (descriptors : Value)
  | batch (records descriptors fields : Value)
  | batchFile (location descriptors fields : Value)
  | reload

/-- What a call does. What it returns is left out; a fault is not. -/
def Call.run : Call → Action Service Unit
  | check descriptors record => do
    let _ ← Service.check descriptors record
    pure ()
  | require descriptors record => Service.require descriptors record
  | report o => do
    let _ ← Service.report o
    pure ()
  | message key => do
    let _ ← Service.message key
    pure ()
  | discover descriptors => do
    let _ ← Service.discover descriptors
    pure ()
  | batch records descriptors fields => do
    let _ ← Service.batch records descriptors fields
    pure ()
  | batchFile location descriptors fields => do
    let _ ← Service.batchFile location descriptors fields
    pure ()
  | reload => Service.reload

theorem Call.keeps_run (hp : IgnoresCalls p) (call : Call) : Keeps p call.run := by
  cases call with
  | check ds r => exact (keeps_check hp ds r).bind fun _ => keeps_pure p ()
  | require ds r => exact keeps_require hp ds r
  | report o => exact (keeps_report hp o).bind fun _ => keeps_pure p ()
  | message key =>
    refine Keeps.bind ?_ fun _ => keeps_pure p ()
    exact (keeps_state p).bind fun _ => keeps_ofTraced hp.logged _
  | discover ds =>
    refine Keeps.bind ?_ fun _ => keeps_pure p ()
    exact (keeps_look hp).bind fun _ => keeps_ofTraced hp.logged _
  | batch rs ds fs =>
    refine Keeps.bind ?_ fun _ => keeps_pure p ()
    exact (keeps_ofExcept p _).bind fun rs => keeps_batchList hp rs ds fs
  | batchFile l ds fs =>
    refine Keeps.bind ?_ fun _ => keeps_pure p ()
    exact (Records.keeps_loadAt hp.called l).bind fun rs => keeps_batchList hp rs ds fs
  | reload => exact keeps_reload hp

/-! ## Reachable services -/

/-- The locale that is asked for at the start; nothing stands for the default one. -/
def localeValue (locale : Option String) : Value := (locale.map .text).getD .null

/-- The services that calls lead to, each call in a world of its own. -/
inductive Reachable : Service → Prop
  | start {config locale : Option String} {provider : Option Messages} {w w' : World} {s : Service}
      (h : Service.start config provider (localeValue locale) w = (.ok s, w')) : Reachable s
  | call {s s' : Service} {w w' : World} {r : Except Fault Unit} (h : Reachable s) (call : Call)
      (hcall : call.run s w = (r, s', w')) : Reachable s'

/-- What a configuration and a locale are good for, as long as the service lives. -/
structure IsConfigured (s : Service) : Prop where
  maxAge_nonneg : isNegative s.catalogs.settings.maxAge.toValue = false
  locale_isText : ∃ l, s.catalogs.settings.effectiveLocale s.locale = .text l

/-- The greatest age in a configuration that is accepted is not negative. -/
theorem maxAge_nonneg_of_ofDocument {path : String} {document : Value} {settings : Settings}
    (h : Settings.ofDocument path document = .ok settings) :
    isNegative settings.maxAge.toValue = false := by
  obtain ⟨haccepts, rfl⟩ := (Settings.ofDocument_eq_ok_iff path document settings).1 h
  have hrule : (Rule.property Settings.maxAgeKey [.kind .number, .nonNegative]).Holds
      (Settings.configurationOf document) :=
    Schema.holds_iff_forall.1 ((Schema.accepts_iff _ _).1 haccepts) _ (by simp [Settings.schema])
  rw [Rule.Holds] at hrule
  rw [Settings.ofConfiguration]
  cases hfield : (Settings.configurationOf document).field? Settings.maxAgeKey with
  | none => rfl
  | some v =>
    have hnonneg : isNegative v = false :=
      Schema.holds_iff_forall.1 (hrule v hfield) .nonNegative (by simp)
    cases hq : Quantity.ofValue? v with
    | none =>
      simp only [Option.bind_some, hq]
      rfl
    | some q =>
      simp only [Option.bind_some, hq, Option.getD_some, Quantity.toValue_of_ofValue? hq]
      exact hnonneg

/-- The locale that is meant when the locale asked for is a text or nothing. -/
theorem effectiveLocale_localeValue (settings : Settings) (locale : Option String) :
    ∃ l, settings.effectiveLocale (localeValue locale) = .text l := by
  cases locale with
  | none => exact ⟨settings.defaultLocale, rfl⟩
  | some l =>
    by_cases h : (Value.text l).truthy = true
    · exact ⟨l, if_pos h⟩
    · exact ⟨settings.defaultLocale, if_neg h⟩

/-- What is meant by the locale that is meant is that locale. -/
theorem effectiveLocale_idem (settings : Settings) (asked : Value) :
    settings.effectiveLocale (settings.effectiveLocale asked) = settings.effectiveLocale asked := by
  by_cases h : asked.truthy = true
  · rw [Settings.effectiveLocale, Settings.effectiveLocale, if_pos h, if_pos h]
  · rw [Settings.effectiveLocale, Settings.effectiveLocale, if_neg h]
    split <;> rfl

/-- The parts of a service that the calls of it do not change. -/
def setup (s : Service) : Settings × Value × Option Messages :=
  (s.catalogs.settings, s.locale, s.injected)

theorem settings_of_setup {s s' : Service} (h : s'.setup = s.setup) :
    s'.catalogs.settings = s.catalogs.settings := congrArg Prod.fst h

theorem injected_of_setup {s s' : Service} (h : s'.setup = s.setup) : s'.injected = s.injected :=
  congrArg (·.2.2) h

theorem ignoresCalls_setup : IgnoresCalls fun s _ => s.setup :=
  ⟨fun _ _ _ => rfl, fun _ _ _ => rfl, fun _ _ _ => rfl, fun _ _ _ => rfl, fun _ _ _ _ => rfl,
    fun _ _ _ => rfl⟩

theorem ignoresCalls_clock : IgnoresCalls fun _ w => w.clock :=
  ⟨fun _ _ _ => rfl, fun _ _ _ => rfl, fun _ _ _ => rfl, fun _ _ _ => rfl, fun _ _ _ _ => rfl,
    fun _ _ _ => rfl⟩

theorem IsConfigured.of_setup {s s' : Service} (h : IsConfigured s) (hsame : s'.setup = s.setup) :
    IsConfigured s' := by
  simp only [setup, Prod.mk.injEq] at hsame
  obtain ⟨hsettings, hlocale, -⟩ := hsame
  exact ⟨by rw [hsettings]; exact h.maxAge_nonneg, by rw [hsettings, hlocale]; exact h.locale_isText⟩

/-- A catalog that was loaded at a time is as old as the time since then. -/
theorem IsConfigured.age_noted {s : Service} (h : IsConfigured s) (hown : s.injected = none)
    (loaded now : Double) : (s.noted loaded).age now = some (now.sub loaded) := by
  obtain ⟨l, hl⟩ := h.locale_isText
  have hown' : (s.noted loaded).injected = none := hown
  rw [age, hown']
  exact Catalogs.age_noted hl loaded now

/-- A service is started by getting messages for a configuration that was accepted. -/
theorem exists_of_start {config : Option String} {provider : Option Messages} {locale : Value}
    {w w' : World} {s : Service} (h : Service.start config provider locale w = (.ok s, w')) :
    ∃ c, Catalogs.ofConfiguration config w = .ok c
      ∧ prepare (unready c provider locale) w = (.ok (), s, w') := by
  rw [start] at h
  cases hc : Catalogs.ofConfiguration config w with
  | error f => simp [hc] at h
  | ok c =>
    rw [hc] at h
    refine ⟨c, rfl, ?_⟩
    rcases hprepare : prepare (unready c provider locale) w with ⟨f | u, s', v⟩
    · simp [hprepare] at h
    · simp only [hprepare, Prod.mk.injEq, Except.ok.injEq] at h
      obtain ⟨rfl, rfl⟩ := h
      rfl

theorem start_of_prepare {config : Option String} {provider : Option Messages} {locale : Value}
    {c : Catalogs} {s : Service} {w w' : World} (hc : Catalogs.ofConfiguration config w = .ok c)
    (h : prepare (unready c provider locale) w = (.ok (), s, w')) :
    start config provider locale w = (.ok s, w') := by
  rw [start, hc]
  simp only [h]

theorem isConfigured_unready {config locale : Option String} {provider : Option Messages}
    {c : Catalogs} {w : World} (hc : Catalogs.ofConfiguration config w = .ok c) :
    IsConfigured (unready c provider (localeValue locale)) := by
  constructor
  · rw [Catalogs.ofConfiguration] at hc
    cases hdocument : w.readDocument (Catalogs.configurationPath w.folders config) with
    | error f => simp [hdocument] at hc
    | ok document =>
      simp only [hdocument] at hc
      cases hs : Settings.ofDocument (Catalogs.configurationPath w.folders config) document with
      | error f => simp [hs, Except.map] at hc
      | ok settings =>
        rw [hs] at hc
        cases hc
        exact maxAge_nonneg_of_ofDocument hs
  · obtain ⟨l, hl⟩ := effectiveLocale_localeValue c.settings locale
    exact ⟨l, by rw [unready, effectiveLocale_idem, hl]⟩

theorem isConfigured_of_start {config locale : Option String} {provider : Option Messages}
    {w w' : World} {s : Service}
    (h : Service.start config provider (localeValue locale) w = (.ok s, w')) : IsConfigured s := by
  obtain ⟨c, hc, hprepare⟩ := exists_of_start h
  have hkeeps := keeps_prepare ignoresCalls_setup (unready c provider (localeValue locale)) w
  rw [hprepare] at hkeeps
  exact (isConfigured_unready hc).of_setup hkeeps

theorem Reachable.isConfigured {s : Service} (h : Reachable s) : IsConfigured s := by
  induction h with
  | start hstart => exact isConfigured_of_start hstart
  | @call s s' w w' r _ call hcall ih =>
    have hkeeps := call.keeps_run ignoresCalls_setup s w
    rw [hcall] at hkeeps
    exact ih.of_setup hkeeps

/-- A source of messages that was given at the start is there ever after. -/
theorem injected_of_start {config locale : Option String} {provider : Option Messages}
    {w w' : World} {s : Service}
    (h : Service.start config provider (localeValue locale) w = (.ok s, w')) :
    s.injected = provider := by
  obtain ⟨c, -, hprepare⟩ := exists_of_start h
  have hkeeps := keeps_prepare ignoresCalls_setup (unready c provider (localeValue locale)) w
  rw [hprepare] at hkeeps
  exact injected_of_setup hkeeps

theorem injected_of_run {call : Call} {s s' : Service} {w w' : World} {r : Except Fault Unit}
    (h : call.run s w = (r, s', w')) : s'.injected = s.injected := by
  have hkeeps := call.keeps_run ignoresCalls_setup s w
  rw [h] at hkeeps
  exact injected_of_setup hkeeps

end Service

end FieldCheck
