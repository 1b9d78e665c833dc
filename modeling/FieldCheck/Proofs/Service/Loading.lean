/-
FieldCheck.Proofs.Service.Loading — what loading a catalog leaves behind.

A load reads files, asks the network, keeps what it fetched and logs. None of
that changes the catalogs themselves or the clock (`keeps_loadFrom`). Only the
very end of a load changes them: the time of the locale is noted. So a load
that fails leaves the catalogs as they were, and one that succeeds has noted
the time and changed nothing else (`load_cases`).

`noted` is this change as a function. The age that is read behind it is the
age of something loaded at that moment (`age_noted`).
-/
import FieldCheck.Catalogs
import FieldCheck.Proofs.Action

namespace FieldCheck

open FieldCheck.Action

namespace Catalogs

/-! ## Requests, files and records of the log -/

/-- A reading that requests, kept files and the log have no influence on. -/
structure IgnoresTraffic {γ : Type} (p : Catalogs → World → γ) : Prop where
  logged : ∀ c w rs, p c (w.logged rs) = p c w
  called : ∀ c w call, p c (w.called call) = p c w
  files : ∀ c w files, p c { w with files := files } = p c w

variable {γ : Type} {p : Catalogs → World → γ}

theorem keeps_readFile (path : String) : Keeps p (readFile path) :=
  (keeps_world p).bind fun _ => keeps_ofExcept p _

theorem keeps_fetch (hp : IgnoresTraffic p) (uri : String) : Keeps p (fetch uri) := by
  refine (keeps_world p).bind fun w => (keeps_changeWorld fun c w => hp.called c w _).bind fun _ => ?_
  cases w.reply uri with
  | unreachable m => exact keeps_fail p _
  | refused m => exact keeps_fail p _
  | content whole chunks => exact keeps_pure p whole

theorem keeps_store (hp : IgnoresTraffic p) (path : String) (content : Content) :
    Keeps p (store path content) := by
  refine (keeps_world p).bind fun w => ?_
  cases keep w.folders.cache path content w.clock w.files with
  | error f => exact keeps_fail p f
  | ok t => exact keeps_changeWorld fun c w => hp.files c w t

theorem keeps_loadRemote (hp : IgnoresTraffic p) (uri : String) : Keeps p (loadRemote uri) := by
  refine (keeps_world p).bind fun w => (keeps_state p).bind fun c => ?_
  dsimp only
  split
  · exact (keeps_log hp.logged _ _ _).bind fun _ => keeps_readFile _
  · exact (keeps_fetch hp uri).bind fun content => (keeps_store hp _ content).bind fun _ =>
      keeps_ofExcept p _

/-- A kept catalog that is not too old is read. -/
theorem loadRemote_of_isFresh {uri : String} {c : Catalogs} {w : World}
    (h : isFresh c.settings.maxAge w (keptPath w.folders uri) = true) :
    loadRemote uri c w
      = readFile (keptPath w.folders uri) c
        (w.logged [⟨.debug, .catalogs, "Using cached message catalog for " ++ uri⟩]) := by
  rw [loadRemote, world_bind, state_bind, if_pos h, log_bind]

/-- A catalog that is not kept, or that has been kept for too long, is fetched. -/
theorem loadRemote_of_not_isFresh {uri : String} {c : Catalogs} {w : World}
    (h : isFresh c.settings.maxAge w (keptPath w.folders uri) = false) :
    loadRemote uri c w = (do
      let content ← fetch uri
      store (keptPath w.folders uri) content
      ofExcept content.asDocument : Action Catalogs Value) c w := by
  rw [loadRemote, world_bind, state_bind, if_neg (by simp [h])]

/-- Getting a catalog from its location changes the world by traffic alone. -/
theorem keeps_loadFrom (hp : IgnoresTraffic p) (uri : String) : Keeps p (loadFrom uri) := by
  refine (keeps_state p).bind fun c => (keeps_ofExcept p _).bind fun u => ?_
  split
  · exact keeps_readFile _
  split
  · exact keeps_readFile _
  split
  · exact keeps_loadRemote hp uri
  · exact keeps_fail p _

theorem loadFrom_state (uri : String) (c : Catalogs) (w : World) : (loadFrom uri c w).2.1 = c :=
  keeps_loadFrom (p := fun c _ => c) ⟨fun _ _ _ => rfl, fun _ _ _ => rfl, fun _ _ _ => rfl⟩ uri c w

theorem loadFrom_clock (uri : String) (c : Catalogs) (w : World) :
    (loadFrom uri c w).2.2.clock = w.clock :=
  keeps_loadFrom (p := fun _ w => w.clock) ⟨fun _ _ _ => rfl, fun _ _ _ => rfl, fun _ _ _ => rfl⟩
    uri c w

/-- A whole load changes the catalogs only by noting a time. -/
theorem keeps_load (hp : IgnoresTraffic p)
    (hnoted : ∀ c w times, p { c with loadedAt := times } w = p c w) (asked : Value) :
    Keeps p (load asked) := by
  refine (keeps_state p).bind fun c => (keeps_ofExcept p _).bind fun name => ?_
  refine (keeps_loadFrom hp _).bind fun document => (keeps_ofExcept p _).bind fun key => ?_
  exact (keeps_world p).bind fun w => (keeps_changeState fun c w => hnoted c w _).bind fun _ =>
    keeps_pure p _

/-! ## Noting the time -/

/-- The catalogs when that of a locale was loaded at a time. -/
def noted (c : Catalogs) (asked : Value) (now : Double) : Catalogs :=
  { c with loadedAt := setTime (c.settings.effectiveLocale asked) now c.loadedAt }

@[simp] theorem settings_noted (c : Catalogs) (asked : Value) (now : Double) :
    (c.noted asked now).settings = c.settings := rfl

/-- A locale that was just loaded is as old as the time since then. -/
theorem age_noted {c : Catalogs} {asked : Value} {locale : String}
    (h : c.settings.effectiveLocale asked = .text locale) (loaded now : Double) :
    (c.noted asked loaded).age asked now = some (now.sub loaded) := by
  rw [age, settings_noted, noted, h, time?_setTime_self]
  rfl

/-! ## Loading -/

/-- A load fails and leaves the catalogs as they are, or it succeeds and notes the time. -/
theorem load_cases (asked : Value) (c : Catalogs) (w : World) :
    ∃ w', w'.clock = w.clock ∧
      ((∃ f, load asked c w = (.error f, c, w'))
        ∨ ∃ document, load asked c w = (.ok document, c.noted asked w.clock, w')) := by
  rw [load, state_bind]
  cases (c.settings.effectiveLocale asked).display with
  | error f => exact ⟨w, rfl, .inl ⟨f, rfl⟩⟩
  | ok name =>
    have hsame := loadFrom_state (c.settings.catalogUri name) c w
    have hclock := loadFrom_clock (c.settings.catalogUri name) c w
    rw [ofExcept_ok_bind]
    rcases hload : loadFrom (c.settings.catalogUri name) c w with ⟨f | document, c', w'⟩
    · rw [hload] at hsame hclock
      subst hsame
      exact ⟨w', hclock, .inl ⟨f, bind_of_error _ hload⟩⟩
    · rw [hload] at hsame hclock
      subst hsame
      rw [bind_of_ok _ hload, Value.asKey]
      refine ⟨w', hclock, ?_⟩
      cases (c'.settings.effectiveLocale asked).unhashablePart with
      | some kind => exact .inl ⟨.unhashable kind, rfl⟩
      | none => exact .inr ⟨_, by rw [← hclock]; rfl⟩

end Catalogs

end FieldCheck
