/-
FieldCheck.Proofs.Service.Faults — what can go wrong in a service.

A service can be kept from its work by its surroundings: by what stands in files
or comes from the network, by a location that is none, by a number with too many
digits. Such faults are `IsExternal`. Two other kinds of faults are told apart
from them. One is about the kind of a value, which is a mistake in how the service
is used. The other one is the verdict on a record.

To load a catalog can only fail externally, as long as the locale is a text
(`failsOnly_look`), whatever the catalog holds. A check adds no more than that if
its descriptors are texts, a report cannot fail if there is a text to put in front
(`IsReady`), and naming a record by fields that are texts can only fail for its
digits.
-/
import FieldCheck.Proofs.Records.Failures
import FieldCheck.Proofs.Service.Reporting

namespace FieldCheck

open FieldCheck.Action

/-! ## External faults -/

/-- The fault is not about the kind of a value, and it is no verdict on a record. -/
structure Fault.IsExternal (f : Fault) : Prop where
  kind : f.isAboutKind = false
  verdict : f.isVerdict = false

theorem Fault.IsAboutDigits.isExternal {f : Fault} (h : f.IsAboutDigits) : f.IsExternal := by
  cases h <;> exact ⟨rfl, rfl⟩

variable {f : Fault}

theorem Value.isExternal_of_display {v : Value} (h : v.display = .error f) : f.IsExternal := by
  rw [display] at h
  split at h
  · cases h
  · cases h
    exact ⟨rfl, rfl⟩

theorem Content.isExternal_of_ofChars {source : String} {index : Nat} {cs : List Char}
    (h : ofChars source index cs = .error f) : f.IsExternal := by
  induction cs generalizing index with
  | nil => cases h
  | cons c cs ih =>
    rw [ofChars] at h
    split at h
    · exact ih h
    · cases h
      exact ⟨rfl, rfl⟩

theorem Content.isExternal_of_documentFrom {source : String} {prepare : List Char → List Char}
    {content : Content} (h : content.documentFrom source prepare = .error f) : f.IsExternal := by
  cases content with
  | document v => cases h
  | bytes bs =>
    rw [documentFrom] at h
    split at h
    · exact isExternal_of_ofChars h
    · cases h
      exact ⟨rfl, rfl⟩

theorem World.isExternal_of_readDocument {w : World} {path : String}
    (h : w.readDocument path = .error f) : f.IsExternal := by
  rw [readDocument] at h
  cases hread : w.read path with
  | ok content =>
    rw [hread] at h
    exact Content.isExternal_of_documentFrom h
  | error f' =>
    rw [hread] at h
    cases h
    rw [read, Files.read] at hread
    split at hread
    · cases hread
      exact ⟨rfl, rfl⟩
    split at hread
    · cases hread
      exact ⟨rfl, rfl⟩
    split at hread
    · rename_i o _
      cases hread
      cases o <;> exact ⟨rfl, rfl⟩
    · cases hread
      exact ⟨rfl, rfl⟩
    · cases hread

theorem Uri.isExternal_of_parse {location : String} (h : parse location = .error f) :
    f.IsExternal := by
  obtain ⟨reason, rfl⟩ := eq_malformedHost_of_parse h
  exact ⟨rfl, rfl⟩

/-! ## Records -/

namespace Records

theorem IsCause.isExternal (h : IsCause f) : f.IsExternal := by
  cases h <;> exact ⟨rfl, rfl⟩

/-- To put the location in front makes no other fault of an external one. -/
theorem IsFailure.isExternal {location : String} (h : IsFailure location f) : f.IsExternal := by
  cases h with
  | tooLarge => exact ⟨rfl, rfl⟩
  | caused hcause => exact ⟨hcause.isExternal.kind, rfl⟩

theorem failsOnly_loadAt {σ : Type} {I : σ → Prop} (location : String) :
    FailsOnly I Fault.IsExternal (loadAt (.text location)) := by
  intro s w hs
  have hstate : (loadAt (.text location) s w).2.1 = s :=
    keeps_loadAt (p := fun s _ => s) (fun _ _ _ => rfl) (.text location) s w
  rw [hstate]
  refine ⟨hs, fun f hf => ?_⟩
  cases hparse : Uri.parse location with
  | ok u => exact ((loadAt_of_parse s hparse).2 f hf).isExternal
  | error f' =>
    rw [loadAt, load, hparse] at hf
    cases hf
    exact Uri.isExternal_of_parse hparse

end Records

/-! ## Catalogs -/

namespace Catalogs

variable {I : Catalogs → Prop}

theorem isExternal_of_keep {folder path : String} {content : Content} {now : Double} {t : Files}
    (h : keep folder path content now t = .error f) : f.IsExternal := by
  rw [keep] at h
  repeat' split at h
  all_goals cases h <;> exact ⟨rfl, rfl⟩

theorem failsOnly_readFile (path : String) : FailsOnly I Fault.IsExternal (readFile path) :=
  failsOnly_world.bind fun _ => failsOnly_ofExcept fun _ => World.isExternal_of_readDocument

theorem failsOnly_fetch (uri : String) : FailsOnly I Fault.IsExternal (fetch uri) := by
  refine failsOnly_world.bind fun w => (failsOnly_changeWorld _).bind fun _ => ?_
  cases w.reply uri with
  | content whole chunks => exact failsOnly_pure whole
  | _ => exact failsOnly_fail ⟨rfl, rfl⟩

theorem failsOnly_store (path : String) (content : Content) :
    FailsOnly I Fault.IsExternal (store path content) := by
  refine failsOnly_world.bind fun w => ?_
  cases h : keep w.folders.cache path content w.clock w.files with
  | error f => exact failsOnly_fail (isExternal_of_keep h)
  | ok t => exact failsOnly_changeWorld _

theorem failsOnly_loadRemote (uri : String) : FailsOnly I Fault.IsExternal (loadRemote uri) := by
  refine failsOnly_world.bind fun w => .state_bind fun c _ => ?_
  dsimp only
  split
  · exact (failsOnly_log _ _ _).bind fun _ => failsOnly_readFile _
  · exact (failsOnly_fetch uri).bind fun content => (failsOnly_store _ content).bind fun _ =>
      failsOnly_ofExcept fun _ => Content.isExternal_of_documentFrom

theorem failsOnly_loadFrom (uri : String) : FailsOnly I Fault.IsExternal (loadFrom uri) := by
  refine .state_bind fun c _ => ?_
  refine (failsOnly_ofExcept fun _ => Uri.isExternal_of_parse).bind fun u => ?_
  split
  · exact failsOnly_readFile _
  split
  · exact failsOnly_readFile _
  split
  · exact failsOnly_loadRemote uri
  · exact failsOnly_fail ⟨rfl, rfl⟩

/-- What is asked for is a text or stands for the default locale. -/
def AsksForText (asked : Value) : Prop :=
  ∀ settings : Settings, ∃ l, settings.effectiveLocale asked = .text l

/-- A locale that is a text can be a key, so that its time can be noted. -/
theorem failsOnly_load {asked : Value} (h : AsksForText asked) :
    FailsOnly (fun _ => True) Fault.IsExternal (load asked) := by
  refine .state_bind fun c _ => ?_
  obtain ⟨l, hl⟩ := h c.settings
  refine (failsOnly_ofExcept fun _ => Value.isExternal_of_display).bind fun name => ?_
  refine (failsOnly_loadFrom _).bind fun document => ?_
  rw [hl]
  exact (failsOnly_ofExcept nofun).bind fun _ => failsOnly_world.bind fun _ =>
    (failsOnly_changeState fun _ _ => trivial).bind fun _ => failsOnly_pure _

end Catalogs

/-! ## Messages -/

namespace Messages

theorem isExternal_of_shownEntries {es : List (Value × Value)} (h : shownEntries es = .error f) :
    f.IsExternal := by
  induction es with
  | nil => cases h
  | cons e es ih =>
    obtain ⟨k, v⟩ := e
    rw [shownEntries] at h
    cases hk : k.display with
    | error f' =>
      rw [hk] at h
      cases h
      exact Value.isExternal_of_display hk
    | ok key =>
      rw [hk] at h
      cases hv : v.display with
      | error f' =>
        rw [hv] at h
        cases h
        exact Value.isExternal_of_display hv
      | ok text =>
        rw [hv] at h
        exact ih (eq_error_of_map h)

/-- A catalog of the wrong shape is no mistake of who uses the service. -/
theorem isExternal_of_ofCatalog {document : Value} (h : ofCatalog document = .error f) :
    f.IsExternal := by
  cases document with
  | dict entries =>
    have hentries := eq_error_of_map h
    cases hsection : sectionEntries entries with
    | error f' =>
      rw [hsection] at hentries
      cases hentries
      rw [sectionEntries] at hsection
      repeat' split at hsection
      all_goals cases hsection <;> exact ⟨rfl, rfl⟩
    | ok es =>
      rw [hsection] at hentries
      exact isExternal_of_shownEntries hentries
  | _ =>
    cases h
    exact ⟨rfl, rfl⟩

end Messages

/-! ## Looks -/

namespace Service

/-- The locale of the service is a text or stands for the default one. -/
def HasLocale (s : Service) : Prop := Catalogs.AsksForText s.locale

theorem IsConfigured.hasLocale {s : Service} (h : IsConfigured s) : HasLocale s := by
  intro settings
  obtain ⟨l, hl⟩ := h.locale_isText
  by_cases htruthy : s.locale.truthy = true
  · rw [Settings.effectiveLocale, if_pos htruthy] at hl
    exact ⟨l, by rw [Settings.effectiveLocale, if_pos htruthy, hl]⟩
  · exact ⟨settings.defaultLocale, if_neg htruthy⟩

theorem failsOnly_onCatalogs_load {asked : Value} (h : Catalogs.AsksForText asked) :
    FailsOnly HasLocale Fault.IsExternal (onCatalogs (Catalogs.load asked)) :=
  fun s w hs => ⟨hs, (Catalogs.failsOnly_load h s.catalogs w trivial).2⟩

theorem failsOnly_prepare : FailsOnly HasLocale Fault.IsExternal prepare := by
  have huse : ∀ m, FailsOnly HasLocale Fault.IsExternal (useMessages m) := fun m =>
    (failsOnly_changeState fun _ hs => hs).bind fun _ =>
      (failsOnly_changeState fun _ hs => hs).bind fun _ =>
        failsOnly_world.bind fun _ => failsOnly_changeState fun _ hs => hs
  have hload : FailsOnly HasLocale Fault.IsExternal loadMessages := by
    refine .state_bind fun s hs => (failsOnly_onCatalogs_load hs).bind fun document => ?_
    exact (failsOnly_ofExcept fun _ => Messages.isExternal_of_ofCatalog).bind fun m =>
      (failsOnly_log _ _ _).bind fun _ => failsOnly_pure m
  refine .state_bind fun s _ => ?_
  cases s.injected with
  | some m => exact huse m
  | none => exact hload.bind huse

theorem failsOnly_reload : FailsOnly HasLocale Fault.IsExternal reload :=
  failsOnly_prepare.bind fun _ => .state_bind fun _ _ => failsOnly_log _ _ _

/-- What a look at the age of the messages fails with is external. -/
theorem failsOnly_look : FailsOnly HasLocale Fault.IsExternal look := by
  have hold : FailsOnly HasLocale Fault.IsExternal reloadIfOld := by
    refine .state_bind fun s _ => failsOnly_world.bind fun w => ?_
    dsimp only
    cases s.age w.clock with
    | none => exact failsOnly_pure ()
    | some age =>
      dsimp only
      split
      · have hmessage : ∀ f, staleMessage age s.catalogs.settings.maxAge = .error f →
            f.IsExternal := fun _ h => Value.isExternal_of_display (eq_error_of_map h)
        exact (failsOnly_ofExcept hmessage).bind fun _ => (failsOnly_log _ _ _).bind fun _ =>
          failsOnly_reload
      · exact failsOnly_pure ()
  refine .state_bind fun s _ => failsOnly_world.bind fun w => ?_
  split
  · exact failsOnly_pure ()
  · refine (failsOnly_changeState fun s hs => ?_).bind fun _ => hold
    exact (hs : HasLocale s)

/-- Whatever the descriptors are, a check does not fail with a verdict. -/
theorem failsOnly_check_verdict (descriptors record : Value) :
    FailsOnly HasLocale (fun f => f.isVerdict = false) (check descriptors record) := by
  have hlook : FailsOnly HasLocale (fun f => f.isVerdict = false) look := fun s w hs =>
    ⟨(failsOnly_look s w hs).1, fun f hf => ((failsOnly_look s w hs).2 f hf).verdict⟩
  exact hlook.bind fun _ => failsOnly_ofTraced (failsOnly_check_any descriptors record)

/-! ## Services that are ready -/

/-- The service has a locale and messages, and a text to put in front of a report. -/
structure IsReady (s : Service) : Prop where
  locale : HasLocale s
  source : HasSource s
  given : ∀ m ∈ s.injected, ∃ t, (m.get Messages.reportKey).result = .ok (.text t)

variable {s s' : Service}

theorem Reachable.isReady (h : Reachable s)
    (hgiven : ∀ m ∈ s.injected, ∃ t, (m.get Messages.reportKey).result = .ok (.text t)) :
    IsReady s :=
  ⟨h.isConfigured.hasLocale, h.hasSource, hgiven⟩

theorem IsReady.of_setup (h : IsReady s) (hsame : s'.setup = s.setup) (hsource : HasSource s') :
    IsReady s' := by
  have hlocale : s'.locale = s.locale := congrArg (·.2.1) hsame
  refine ⟨?_, hsource, by rw [injected_of_setup hsame]; exact h.given⟩
  rw [HasLocale, hlocale]
  exact h.locale

theorem failsOnly_look_ready : FailsOnly IsReady Fault.IsExternal look := fun s w hs =>
  ⟨hs.of_setup (keeps_look ignoresCalls_setup s w) (hs.source.look w),
    (failsOnly_look s w hs.locale).2⟩

theorem failsOnly_reload_ready : FailsOnly IsReady Fault.IsExternal reload := fun s w hs =>
  ⟨hs.of_setup (keeps_reload ignoresCalls_setup s w) (hs.source.reload w),
    (failsOnly_reload s w hs.locale).2⟩

theorem failsOnly_report (o : Outcome) : FailsOnly IsReady Fault.IsExternal (report o) := by
  intro s w hs
  obtain ⟨front, hfront⟩ := exists_front hs.source hs.given
  obtain ⟨w', hreport⟩ := hfront o w
  rw [hreport]
  exact ⟨hs, nofun⟩

theorem isExternal_of_idParts {entries : List (Value × Value)} {ss : List String}
    (h : idParts entries (ss.map .text) = .error f) : f.IsExternal := by
  induction ss with
  | nil => cases h
  | cons name rest ih =>
    rw [List.map_cons, idParts] at h
    dsimp only [Value.asKey, Value.unhashablePart] at h
    split at h
    · exact ih h
    split at h
    · rename_i f' hdisplay
      cases h
      exact Value.isExternal_of_display hdisplay
    · exact ih (eq_error_of_map h)

/-- The name of a record by fields that are texts. -/
theorem isExternal_of_recordId {ss : List String} {record : Value}
    (h : recordId (.list (ss.map .text)) record = .error f) : f.IsExternal := by
  cases record with
  | dict entries => exact isExternal_of_idParts (eq_error_of_map h)
  | _ => cases h

section Texts

variable {descriptors : Value} {items : List TextItem} (h : Lists descriptors items)

include h

theorem failsOnly_check (record : Value) :
    FailsOnly IsReady Fault.IsExternal (check descriptors record) :=
  failsOnly_look_ready.bind fun _ => failsOnly_ofTraced fun f hf =>
    (failsOnly_check_texts h record f hf).isExternal

theorem failsOnly_discover : FailsOnly IsReady Fault.IsExternal (discover descriptors) :=
  failsOnly_look_ready.bind fun _ => failsOnly_ofTraced fun f hf =>
    (failsOnly_discover_texts h f hf).isExternal

theorem failsOnly_batchList (records : List Value) (ss : List String) :
    FailsOnly IsReady Fault.IsExternal (batchList records descriptors (.list (ss.map .text))) :=
  .forEach (fun record => (failsOnly_check h record).bind fun _ =>
    (failsOnly_ofExcept fun _ => isExternal_of_recordId).bind fun _ =>
      (failsOnly_report _).bind fun _ => failsOnly_pure _) records

theorem failsOnly_batch (records : List Value) (ss : List String) :
    FailsOnly IsReady Fault.IsExternal
      (batch (.list records) descriptors (.list (ss.map .text))) :=
  (failsOnly_ofExcept nofun).bind fun rs => failsOnly_batchList h rs ss

theorem failsOnly_batchFile (uri : String) (ss : List String) :
    FailsOnly IsReady Fault.IsExternal
      (batchFile (.text uri) descriptors (.list (ss.map .text))) :=
  (Records.failsOnly_loadAt uri).bind fun rs => failsOnly_batchList h rs ss

end Texts

end Service

end FieldCheck
