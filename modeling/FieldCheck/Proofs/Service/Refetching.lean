/-
FieldCheck.Proofs.Service.Refetching — messages that are too old are fetched again.

Two ages are compared with one limit. A service looks at the time since its
messages were loaded, and a load looks at the time since the catalog was fetched
and kept. So a load could find a kept catalog young enough that a look found too
old. That it does not is kept along a run (`IsCovered`): what was fetched last was
loaded then or later, if it can be read. A service whose look finds its messages too
old then asks the network.

A content that cannot be read is kept nevertheless. It is younger than the
messages, and a load finds it young enough: it fails without asking the network
(`reload_of_unreadable`).

If no load fails, the messages are those of a fetch (`IsSourced`). They were loaded
when it was not too old, and they are used until a look finds that too long ago, so
the limit counts twice.
-/
import FieldCheck.Proofs.Service.Renewal
import FieldCheck.Proofs.Service.Staleness

namespace FieldCheck

open FieldCheck.Action

namespace Service

open Catalogs (Fetch Holds Gets IsKept IsCacheFolder IsRemote afar afarUri catalogOf lastFetch
  fetchesBetween)
open Double (seconds IsExact)

variable {s s' s₀ : Service} {w w' w₀ : World} {folder : List String} {past new : List Fetch}
  {times : Set Double} {permits : Call → Service → World → Prop} {call : Call}
  {r : Except Fault Unit} {limit : ℚ}

/-! ## Runs -/

/-- Between two worlds nothing happens to what is kept of a catalog, and the clock
does not go back. -/
structure Undisturbed (folder : List String) (u : String) (w w' : World) : Prop where
  cache : w'.folders.cache = w.folders.cache
  kept : ∀ p, p <+: folder ++ [Catalogs.keptName u] → w'.files.entryAt p = w.files.entryAt p
  clock : seconds w.clock ≤ seconds w'.clock

/-- The services with a catalog on the network that permitted calls lead to, with the
world behind the last call and all fetches of the catalog, those before the start
among them. In between the world may change, but what is kept is left alone. -/
inductive RemoteRun (folder : List String) (times : Set Double)
    (permits : Call → Service → World → Prop) : Service → World → List Fetch → Prop
  | start {config locale : Option String} {s : Service} {w w' : World} {past : List Fetch}
      (h : Service.start config none (localeValue locale) w = (.ok s, w'))
      (hremote : IsRemote s.catalogs.settings.location)
      (hcache : IsCacheFolder w.folders.cache folder)
      (hholds : Holds {s.uri} folder w.files past)
      (hpast : ∀ f ∈ past, f.time ∈ times ∧ seconds f.time ≤ seconds w.clock)
      (htime : w.clock ∈ times) :
      RemoteRun folder times permits s w' (fetchesBetween s.uri w w' ++ past)
  | change {s : Service} {w w' : World} {past : List Fetch}
      (h : RemoteRun folder times permits s w past) (hkept : Undisturbed folder s.uri w w')
      (htime : w'.clock ∈ times) : RemoteRun folder times permits s w' past
  | call {s s' : Service} {w w' : World} {past : List Fetch} {r : Except Fault Unit}
      (h : RemoteRun folder times permits s w past) (call : Call) (hpermits : permits call s w)
      (hcall : call.run s w = (r, s', w')) :
      RemoteRun folder times permits s' w' (fetchesBetween s.uri w w' ++ past)

/-! ## The folder -/

/-- The folder holds the last fetch of the catalog, and no fetch is in the future. -/
structure IsTracked (folder : List String) (times : Set Double) (s : Service) (w : World)
    (past : List Fetch) : Prop where
  network : UsesNetwork s
  cache : IsCacheFolder w.folders.cache folder
  holds : Holds {s.uri} folder w.files past
  time_mem : w.clock ∈ times
  fetched : ∀ f ∈ past, f.time ∈ times ∧ seconds f.time ≤ seconds w.clock

theorem IsTracked.idles (h : IsTracked folder times s w past) (hidle : Idles s w s' w') :
    IsTracked folder times s' w' past where
  network := h.network.of_setup hidle.setup_eq
  cache := by rw [hidle.world.folders]; exact h.cache
  holds := by rw [uri_of_setup hidle.setup_eq, hidle.world.files]; exact h.holds
  time_mem := by rw [hidle.world.clock]; exact h.time_mem
  fetched := by rw [hidle.world.clock]; exact h.fetched

theorem IsTracked.renews (h : IsTracked folder times s w past)
    (hrenews : Renews folder s w past new r s' w') :
    IsTracked folder times s' w' (new ++ past) where
  network := h.network.of_setup hrenews.setup_eq
  cache := by rw [hrenews.folders_eq]; exact h.cache
  holds := by rw [uri_of_setup hrenews.setup_eq]; exact hrenews.holds h.holds
  time_mem := by rw [hrenews.clock_eq]; exact h.time_mem
  fetched := by
    intro f hf
    rw [hrenews.clock_eq]
    rcases List.mem_append.1 hf with hf | hf
    · rw [hrenews.time_eq hf]
      exact ⟨h.time_mem, le_rfl⟩
    · exact h.fetched f hf

theorem IsTracked.change (h : IsTracked folder times s w past)
    (hkept : Undisturbed folder s.uri w w') (htime : w'.clock ∈ times) :
    IsTracked folder times s w' past where
  network := h.network
  cache := by rw [hkept.cache]; exact h.cache
  holds := by
    have hway : ∀ p, p <+: folder → w'.files.entryAt p = w.files.entryAt p := fun p hp =>
      hkept.kept p (hp.trans (List.prefix_append _ _))
    refine ⟨?_, ?_, ?_⟩
    · intro p hp
      rw [hway p hp]
      exact h.holds.clear p hp
    · intro hpast p hp
      rw [hway p hp]
      exact h.holds.made hpast p hp
    · rintro u rfl
      rw [hkept.kept _ List.prefix_rfl]
      exact h.holds.kept _ rfl
  time_mem := htime
  fetched := fun f hf => ⟨(h.fetched f hf).1, (h.fetched f hf).2.trans hkept.clock⟩

/-- A call idles and nothing is fetched, or it goes on to one reload, and what is
fetched is fetched by that. -/
theorem IsTracked.course (h : IsTracked folder times s w past)
    (hcall : call.run s w = (r, s', w')) :
    (Idles s w s' w' ∧ fetchesBetween s.uri w w' = [])
      ∨ ∃ s₀ w₀ w₁, call.Reloads s w s₀ w₀ ∧ Idles s w s₀ w₀
        ∧ Renews folder s₀ w₀ past (fetchesBetween s.uri w w') (reload s₀ w₀).1 s' w₁
        ∧ SameBackground w₁ w' := by
  rcases call.course h.network.configured w with hidle | ⟨s₀, w₀, hreloads, hidle, hfollows⟩
  · rw [hcall] at hidle
    exact .inl ⟨hidle, Catalogs.fetchesBetween_of_background hidle.world⟩
  · have h₀ := h.idles hidle
    obtain ⟨new, r₁, s₁, w₁, hrenews, hreload⟩ :=
      exists_renews_reload h₀.network h₀.cache h₀.holds
    rw [hcall] at hfollows
    obtain ⟨hservice, hworld⟩ := hfollows
    rw [hreload] at hservice hworld
    obtain rfl : s' = s₁ := hservice
    refine .inr ⟨s₀, w₀, w₁, hreloads, hidle, ?_, hworld⟩
    rw [Catalogs.fetchesBetween_congr hidle.world hworld, ← uri_of_setup hidle.setup_eq,
      hrenews.fetchesBetween_eq, hreload]
    exact hrenews

theorem IsTracked.run (h : IsTracked folder times s w past)
    (hcall : call.run s w = (r, s', w')) :
    IsTracked folder times s' w' (fetchesBetween s.uri w w' ++ past) := by
  rcases h.course hcall with ⟨hidle, hnone⟩ | ⟨s₀, w₀, w₁, -, hidle, hrenews, hworld⟩
  · rw [hnone]
    exact h.idles hidle
  · exact ((h.idles hidle).renews hrenews).idles ⟨.inl rfl, hworld⟩

/-- At the start the messages are got as later on. -/
theorem renews_of_start {config locale : Option String}
    (h : start config none (localeValue locale) w = (.ok s, w'))
    (hremote : IsRemote s.catalogs.settings.location)
    (hcache : IsCacheFolder w.folders.cache folder)
    (hholds : Holds {s.uri} folder w.files past)
    (hpast : ∀ f ∈ past, f.time ∈ times ∧ seconds f.time ≤ seconds w.clock)
    (htime : w.clock ∈ times) : ∃ s₀, IsTracked folder times s₀ w past
      ∧ Renews folder s₀ w past (fetchesBetween s.uri w w') (.ok ()) s w' := by
  obtain ⟨c, hnetwork, hsetup, hprepare⟩ := usesNetwork_of_start h hremote
  rw [uri_of_setup hsetup] at hholds ⊢
  obtain ⟨new, r, s', w', hrenews, hend⟩ := exists_renews_prepare hnetwork hcache hholds
  rw [hprepare] at hend
  cases hend
  rw [hrenews.fetchesBetween_eq]
  exact ⟨_, ⟨hnetwork, hcache, hholds, htime, hpast⟩, hrenews⟩

theorem RemoteRun.isTracked (hrun : RemoteRun folder times permits s w past) :
    IsTracked folder times s w past := by
  induction hrun with
  | start h hremote hcache hholds hpast htime =>
    obtain ⟨s₀, htracked, hrenews⟩ := renews_of_start h hremote hcache hholds hpast htime
    exact htracked.renews hrenews
  | change _ hkept htime ih => exact ih.change hkept htime
  | call _ call _ hcall ih => exact ih.run hcall

/-! ## Messages against the folder -/

/-- The messages are as old as if they had been loaded at that time. -/
def LoadedAt (s : Service) (t : Double) : Prop := ∀ now, s.age now = some (now.sub t)

theorem loadedAt_noted (h : UsesNetwork s) (t : Double) : LoadedAt (s.noted t) t :=
  h.configured.age_noted h.own t

theorem LoadedAt.idles {t : Double} (h : LoadedAt s t) (hidle : Idles s w s' w') :
    LoadedAt s' t := by
  rcases hidle.service with rfl | rfl
  · exact h
  · exact h

/-- The messages are not older than what was fetched last, if that can be read. -/
def IsCovered (times : Set Double) (s : Service) (past : List Fetch) : Prop :=
  ∃ t ∈ times, LoadedAt s t
    ∧ ∀ f, lastFetch s.uri past = some f → f.content.IsReadable → seconds f.time ≤ seconds t

theorem IsCovered.idles (h : IsCovered times s past) (hidle : Idles s w s' w') :
    IsCovered times s' past := by
  obtain ⟨t, ht, hloaded, hlast⟩ := h
  refine ⟨t, ht, hloaded.idles hidle, ?_⟩
  rw [uri_of_setup hidle.setup_eq]
  exact hlast

/-- Messages that were loaded just now are not older than anything. -/
theorem isCovered_of_loadedAt (h : IsTracked folder times s w past) (hloaded : LoadedAt s w.clock) :
    IsCovered times s past :=
  ⟨w.clock, h.time_mem, hloaded, fun f hlast _ =>
    (h.fetched f (List.mem_of_find?_eq_some hlast)).2⟩

theorem IsTracked.isCovered_of_renews (h : IsTracked folder times s w past)
    (hrenews : Renews folder s w past new r s' w')
    (hcovered : r = .ok () ∨ IsCovered times s past) :
    IsCovered times s' (new ++ past) := by
  have hnext := h.renews hrenews
  have hclock := hrenews.clock_eq
  cases hrenews with
  | unavailable hgets =>
    obtain ⟨t, ht, hloaded, hlast⟩ := hcovered.resolve_left (by simp)
    refine ⟨t, ht, hloaded, ?_⟩
    -- A new fetch cannot be read, and without one the last fetch is the old one.
    rcases hgets.new_of_error rfl with rfl | hunreadable
    · exact hlast
    · intro f hf hreadable
      exact absurd hreadable (hunreadable f hf)
  | malformed hgets _ =>
    refine isCovered_of_loadedAt hnext ?_
    rw [hclock]
    exact loadedAt_noted h.network w.clock
  | renewed hgets _ rs =>
    refine isCovered_of_loadedAt hnext ?_
    rw [hclock]
    exact loadedAt_noted h.network w.clock

theorem IsTracked.isCovered_of_run (h : IsTracked folder times s w past)
    (hcovered : IsCovered times s past) (hcall : call.run s w = (r, s', w')) :
    IsCovered times s' (fetchesBetween s.uri w w' ++ past) := by
  rcases h.course hcall with ⟨hidle, hnone⟩ | ⟨s₀, w₀, w₁, -, hidle, hrenews, -⟩
  · rw [hnone]
    exact hcovered.idles hidle
  · exact (h.idles hidle).isCovered_of_renews hrenews (.inr (hcovered.idles hidle))

/-- Along a run the messages are not older than what was fetched last and can be read. -/
theorem RemoteRun.isCovered (hrun : RemoteRun folder times permits s w past) :
    IsCovered times s past := by
  induction hrun with
  | start h hremote hcache hholds hpast htime =>
    obtain ⟨s₀, htracked, hrenews⟩ := renews_of_start h hremote hcache hholds hpast htime
    exact htracked.isCovered_of_renews hrenews (.inl rfl)
  | change _ _ _ ih => exact ih
  | call hrun call _ hcall ih => exact hrun.isTracked.isCovered_of_run ih hcall

/-! ## Reloads -/

/-- A catalog that is kept and not too old was fetched not longer ago than the limit. -/
theorem IsTracked.le_of_isKept (hexact : IsExact times) (h : IsTracked folder times s w past)
    (hlimit : s.catalogs.settings.maxAge.value? = some limit)
    (hkept : IsKept s.catalogs w s.uri) {f : Fetch} (hlast : lastFetch s.uri past = some f) :
    seconds w.clock - seconds f.time ≤ limit := by
  obtain ⟨f', hlast', hage⟩ := (Catalogs.isKept_iff h.holds h.cache rfl).1 hkept
  obtain rfl := Option.some.inj (hlast.symm.trans hlast')
  have htime := (h.fetched f (List.mem_of_find?_eq_some hlast)).1
  exact (Quantity.isAtLeast_iff hlimit (hexact _ h.time_mem _ htime)).1 hage

/-- A kept catalog that can be read is not taken for messages that are too old. -/
theorem IsTracked.not_isReadable_of_isKept (hexact : IsExact times)
    (h : IsTracked folder times s w past) (hcovered : IsCovered times s past)
    (hlimit : s.catalogs.settings.maxAge.value? = some limit) {age : Double}
    (hage : s.age w.clock = some age) (hold : s.catalogs.settings.maxAge.isBelow age = true)
    (hkept : IsKept s.catalogs w s.uri) {f : Fetch} (hlast : lastFetch s.uri past = some f) :
    ¬ f.content.IsReadable := by
  intro hreadable
  obtain ⟨t, ht, hloaded, hcovers⟩ := hcovered
  obtain rfl : w.clock.sub t = age := Option.some.inj ((hloaded _).symm.trans hage)
  have hlong := (Quantity.isBelow_iff hlimit (hexact _ h.time_mem t ht)).1 hold
  have hshort := h.le_of_isKept hexact hlimit hkept hlast
  have hlater := hcovers f hlast hreadable
  linarith

/-- A reload of messages that are too old asks the network, or it fails because it
takes what is kept and cannot read it. -/
theorem IsTracked.reload_of_old (hexact : IsExact times)
    (h : IsTracked folder times s w past) (hcovered : IsCovered times s past)
    (hlimit : s.catalogs.settings.maxAge.value? = some limit) {age : Double}
    (hage : s.age w.clock = some age) (hold : s.catalogs.settings.maxAge.isBelow age = true) :
    ∃ r s' w', reload s w = (r, s', w')
      ∧ (w'.calls = w.calls ++ [Catalogs.request s.uri]
        ∨ w'.calls = w.calls ∧ ∃ f g, lastFetch s.uri past = some f ∧ ¬ f.content.IsReadable
          ∧ r = .error g) := by
  obtain ⟨new, r, s', w', hrenews, hreload⟩ := exists_renews_reload h.network h.cache h.holds
  refine ⟨r, s', w', hreload, ?_⟩
  rcases hrenews.asks with ⟨hkept, hcalls, f, hlast, hread⟩ | ⟨-, hasked⟩
  · have hunreadable := h.not_isReadable_of_isKept hexact hcovered hlimit hage hold hkept hlast
    obtain ⟨g, hg⟩ := hread.resolve_left hunreadable
    exact .inr ⟨hcalls, f, g, hlast, hunreadable, hg⟩
  · exact .inl hasked

/-- A catalog that is too old is not kept for a load. -/
theorem IsTracked.not_isKept (h : IsTracked folder times s w past) {f : Fetch}
    (hlast : lastFetch s.uri past = some f)
    (hold : s.catalogs.settings.maxAge.isAtLeast (w.clock.sub f.time) = false) :
    ¬ IsKept s.catalogs w s.uri := by
  intro hkept
  obtain ⟨f', hlast', hyoung⟩ := (Catalogs.isKept_iff h.holds h.cache rfl).1 hkept
  obtain rfl := Option.some.inj (hlast.symm.trans hlast')
  rw [hold] at hyoung
  cases hyoung

/-! ## Messages of a fetch -/

/-- The messages are those of a fetch, and they were loaded when it was not too old. -/
def IsSourced (times : Set Double) (s : Service) (past : List Fetch) : Prop :=
  ∃ t ∈ times, LoadedAt s t ∧ ∃ f ∈ past, f.uri = s.uri
    ∧ (∃ document, f.content.asDocument = .ok document
      ∧ Messages.ofCatalog (catalogOf document) = .ok s.messages)
    ∧ ∀ limit, s.catalogs.settings.maxAge.value? = some limit → seconds t - seconds f.time ≤ limit

theorem IsSourced.idles (h : IsSourced times s past) (hidle : Idles s w s' w') :
    IsSourced times s' past := by
  rcases hidle.service with rfl | rfl
  · exact h
  · exact h

theorem IsTracked.isSourced_of_renews (hexact : IsExact times)
    (h : IsTracked folder times s w past) (hrenews : Renews folder s w past new r s' w')
    (hok : r = .ok ()) : IsSourced times s' (new ++ past) := by
  cases hrenews with
  | unavailable _ => cases hok
  | malformed _ _ => cases hok
  | @renewed document m _ hgets hm rs =>
    obtain ⟨f, hlast, hdocument, htime⟩ := hgets.exists_lastFetch rfl
    refine ⟨w.clock, h.time_mem, loadedAt_noted h.network w.clock, f,
      List.mem_of_find?_eq_some hlast, Catalogs.uri_of_lastFetch hlast, ⟨document, hdocument, hm⟩, ?_⟩
    intro limit hlimit
    rcases htime with htime | ⟨hkept, hlast⟩
    · rw [htime, sub_self]
      exact Quantity.nonneg_of_value? hlimit h.network.configured.maxAge_nonneg
    · exact h.le_of_isKept hexact hlimit hkept hlast

theorem IsTracked.isSourced_of_run (hexact : IsExact times) (h : IsTracked folder times s w past)
    (hsourced : IsSourced times s past) (hloads : call.LoadsWell s w)
    (hcall : call.run s w = (r, s', w')) :
    IsSourced times s' (fetchesBetween s.uri w w' ++ past) := by
  rcases h.course hcall with ⟨hidle, hnone⟩ | ⟨s₀, w₀, w₁, hreloads, hidle, hrenews, -⟩
  · rw [hnone]
    exact hsourced.idles hidle
  · exact (h.idles hidle).isSourced_of_renews hexact hrenews (hloads s₀ w₀ hreloads)

/-- Along a run in which no load fails the messages are those of a fetch. -/
theorem RemoteRun.isSourced (hexact : IsExact times)
    (hwell : ∀ call s w, permits call s w → call.LoadsWell s w)
    (hrun : RemoteRun folder times permits s w past) : IsSourced times s past := by
  induction hrun with
  | start h hremote hcache hholds hpast htime =>
    obtain ⟨s₀, htracked, hrenews⟩ := renews_of_start h hremote hcache hholds hpast htime
    exact htracked.isSourced_of_renews hexact hrenews rfl
  | change _ _ _ ih => exact ih
  | call hrun call hpermits hcall ih =>
    exact hrun.isTracked.isSourced_of_run hexact ih (hwell _ _ _ hpermits) hcall

/-! ## Looks along a run -/

theorem exists_marks (call : Call) (s : Service) (w : World) (seen : Double) :
    ∃ seen', call.Marks s w seen seen' := by
  by_cases hreload : call = .reload
  · subst hreload
    exact ⟨_, .reload⟩
  · by_cases hlooks : ∃ w₁, call.Looks s w w₁
    · obtain ⟨w₁, hlooks⟩ := hlooks
      by_cases hdue : 300 ≤ seconds w.clock - seconds seen
      · exact ⟨_, .due hlooks hdue⟩
      · exact ⟨_, .early hlooks (not_le.1 hdue)⟩
    · exact ⟨_, .other hreload (not_exists.1 hlooks)⟩

/-- Behind a call that looks, the last look is less than five minutes ago. -/
theorem Call.Marks.lt_of_looks {seen seen' : Double} {w₁ : World}
    (hmarks : call.Marks s w seen seen') (hlooks : call.Looks s w w₁) :
    seconds w.clock - seconds seen' < 300 := by
  have hnow : seconds w.clock - seconds w.clock < 300 := by
    rw [sub_self]
    norm_num
  cases hmarks with
  | reload => exact hnow
  | due _ _ => exact hnow
  | early _ hearly => exact hearly
  | other _ hnone => exact absurd hlooks (hnone w₁)

/-- Along a run in which no load fails the messages are kept young enough. -/
theorem RemoteRun.exists_isFresh (hexact : IsExact times)
    (hwell : ∀ call s w, permits call s w → call.LoadsWell s w)
    (hrun : RemoteRun folder times permits s w past) : ∃ seen, IsFresh times s seen := by
  induction hrun with
  | start h _ _ _ _ htime => exact ⟨_, isFresh_of_start h htime⟩
  | change _ _ _ ih => exact ih
  | @call s _ w _ _ _ hrun call hpermits hcall ih =>
    obtain ⟨seen, hfresh⟩ := ih
    obtain ⟨seen', hmarks⟩ := exists_marks call s w seen
    exact ⟨seen', hfresh.run hexact hrun.isTracked.time_mem (hwell _ _ _ hpermits) hmarks hcall⟩

/-- Messages are loaded at one time only. -/
theorem LoadedAt.seconds_eq (hexact : IsExact times) {now t t' : Double} (hnow : now ∈ times)
    (ht : t ∈ times) (ht' : t' ∈ times) (h : LoadedAt s t) (h' : LoadedAt s t') :
    seconds t = seconds t' := by
  have hsame : now.sub t = now.sub t' := Option.some.inj ((h now).symm.trans (h' now))
  have hsub := hexact now hnow t ht
  rw [hsame, hexact now hnow t' ht'] at hsub
  linarith [Option.some.inj hsub]

/-! ## Main results -/

/-- In a run a look that finds the messages too old goes on to a reload that asks
the network for the catalog, and not to one that takes the kept one. The exception
is a kept content that cannot be read: the reload may take that, and then it fails.

If no load in the run fails, then behind a call that looks, the messages are those of
a fetch that is less than twice the limit and five minutes old. -/
theorem refetch_of_run (hexact : IsExact times) (hrun : RemoteRun folder times permits s w past)
    (hlimit : s.catalogs.settings.maxAge.value? = some limit) :
    (∀ (call : Call) s₀ w₀, call ≠ .reload → call.Reloads s w s₀ w₀ →
      ∃ r s₁ w₁, reload s₀ w₀ = (r, s₁, w₁)
        ∧ (w₁.calls = w₀.calls ++ [Catalogs.request s.uri]
          ∨ w₁.calls = w₀.calls ∧ ∃ f g, lastFetch s.uri past = some f ∧ ¬ f.content.IsReadable
            ∧ r = .error g))
      ∧ ((∀ call s w, permits call s w → call.LoadsWell s w) →
        ∀ (call : Call) w₁ r s' w', call.Looks s w w₁ → call.LoadsWell s w →
          call.run s w = (r, s', w') →
          ∃ f ∈ fetchesBetween s.uri w w' ++ past, f.uri = s.uri
            ∧ (∃ document, f.content.asDocument = .ok document
              ∧ Messages.ofCatalog (catalogOf document) = .ok s'.messages)
            ∧ seconds w'.clock - seconds f.time < 2 * limit + 300) := by
  have htracked := hrun.isTracked
  constructor
  · intro call s₀ w₀ hauto hreloads
    obtain ⟨w₁, hsame, hstale⟩ := hreloads.exists_findsStale htracked.network.configured hauto
    have hidle : Idles s w s₀ w₀ := (Idles.mk (.inl rfl) hsame).trans hstale.idles
    have h₀ := htracked.idles hidle
    obtain ⟨age, hage, hold⟩ := hstale.exists_age
    have hlimit₀ : s₀.catalogs.settings.maxAge.value? = some limit := by
      rw [settings_of_setup hidle.setup_eq]
      exact hlimit
    have hreload := h₀.reload_of_old hexact (hrun.isCovered.idles hidle) hlimit₀ hage hold
    rw [uri_of_setup hidle.setup_eq] at hreload
    exact hreload
  · intro hwell call w₁ r s' w' hlooks hloads hcall
    have hsetup := call.keeps_run ignoresCalls_setup s w
    have hclock := call.keeps_run ignoresCalls_clock s w
    rw [hcall] at hsetup hclock
    have hsetup : s'.setup = s.setup := hsetup
    have hclock : w'.clock = w.clock := hclock
    have hlimit' : s'.catalogs.settings.maxAge.value? = some limit := by
      rw [settings_of_setup hsetup]
      exact hlimit
    obtain ⟨seen, hfresh⟩ := hrun.exists_isFresh hexact hwell
    obtain ⟨seen', hmarks⟩ := exists_marks call s w seen
    obtain ⟨t, ht, hloaded, hyoung⟩ :=
      (hfresh.run hexact htracked.time_mem hloads hmarks hcall).loaded
    obtain ⟨t', ht', hloaded', f, hf, huri, hmessages, hsource⟩ :=
      htracked.isSourced_of_run hexact (hrun.isSourced hexact hwell) hloads hcall
    have hsame := LoadedAt.seconds_eq hexact ht ht ht' hloaded hloaded'
    refine ⟨f, hf, huri.trans (uri_of_setup hsetup), hmessages, ?_⟩
    -- From the fetch to the load, from there to the last look, and from there until now.
    have hload := hsource limit hlimit'
    have hlook := hyoung limit hlimit'
    have hnow := hmarks.lt_of_looks hlooks
    rw [hclock]
    linarith

/-! ## A catalog that changes -/

/-- A configuration with catalogs on the network. -/
def farConfig : Value := .dict [(.text Settings.locationKey, .text "https://e.com/m"),
  (.text Settings.localeKey, .text "en")]

/-- A world with that configuration, and with a reply of the network for the English catalog. -/
def farWorld (reply : Reply) (now : Double) : World where
  folders := ⟨"/", "/", "/cache"⟩
  files := ⟨[(["c"], .file (.document farConfig) .zero)]⟩
  web := [(afarUri, reply)]
  clock := now
  calls := []
  log := []

/-- The service that is started there at time zero, with an empty catalog. -/
def farService : Service where
  catalogs := (afar (.whole 1800)).noted (.text "en") .zero
  locale := .text "en"
  injected := none
  messages := .catalog []
  engine := ⟨.catalog []⟩
  lastLook := .zero

/-- The reply with an empty catalog. -/
def emptyReply : Reply := .content (.document (.dict [])) []

/-- The fetch of that catalog at a time. -/
def emptyFetch (now : Double) : Fetch := ⟨afarUri, .document (.dict []), now⟩

theorem ofConfiguration_far (reply : Reply) (now : Double) :
    Catalogs.ofConfiguration (some "/c") (farWorld reply now) = .ok (afar (.whole 1800)) := by
  have hfile : (farWorld emptyReply .zero).files.read "/" "/c" = .ok (.document farConfig) := rfl
  have hread : (farWorld reply now).read "/c" = .ok (.document farConfig) := hfile
  have hdocument : (farWorld reply now).readDocument "/c" = .ok farConfig := by
    rw [World.readDocument, hread]
    rfl
  have hsettings : Settings.ofDocument "/c" farConfig = .ok (afar (.whole 1800)).settings :=
    (Settings.ofDocument_eq_ok_iff _ _ _).2 ⟨by decide +kernel, rfl⟩
  have hplain : Catalogs.configurationPath (farWorld emptyReply .zero).folders (some "/c") = "/c" :=
    rfl
  have hpath : Catalogs.configurationPath (farWorld reply now).folders (some "/c") = "/c" := hplain
  rw [Catalogs.ofConfiguration, hpath]
  simp only [hdocument, hsettings]
  rfl

theorem uri_far (hsettings : s.catalogs.settings = (afar (.whole 1800)).settings)
    (hlocale : s.locale = .text "en") : s.uri = afarUri := by
  have hname : Catalogs.localeName (afar (.whole 1800)).settings (some "en") = "en" := rfl
  rw [uri, hlocale, hsettings, Catalogs.uriOf, Value.text?_text, hname]
  simp [afar, Settings.catalogUri, afarUri]

/-- A service with that configuration uses the network. -/
theorem usesNetwork_far : UsesNetwork (unready (afar (.whole 1800)) none (localeValue none)) where
  own := rfl
  configured := isConfigured_unready (ofConfiguration_far emptyReply .zero)
  localeValue_eq := rfl
  remote := Catalogs.isRemote_afar (.whole 1800)
  parses := Catalogs.parse_afarUri _ (uri_far rfl rfl)

theorem holds_far (reply : Reply) (now : Double) :
    Holds {afarUri} ["cache"] (farWorld reply now).files [] := by
  have hentry : ∀ place, place ≠ [] → place ≠ ["c"] →
      (farWorld reply now).files.entryAt place = none := by
    intro place hroot hplace
    have hne : ¬ ["c"] = place := fun h => hplace h.symm
    simp [farWorld, Files.entryAt, hroot, hne]
  refine ⟨?_, by simp, ?_⟩
  · intro p hp e he
    have hne : p ≠ ["c"] := by
      rintro rfl
      simp at hp
    by_cases hroot : p = []
    · subst hroot
      exact ⟨.zero, (Option.some.inj he).symm⟩
    · rw [hentry p hroot hne] at he
      cases he
  · intro u _
    exact hentry _ (by simp) (by simp)

theorem ofCatalog_empty : Messages.ofCatalog (catalogOf (.dict [])) = .ok (.catalog []) := rfl

/-- The run that starts there. -/
theorem remoteRun_far (permits : Call → Service → World → Prop) (times : Set Double)
    (htime : .zero ∈ times) :
    ∃ w, RemoteRun ["cache"] times permits farService w [emptyFetch .zero] ∧ w.clock = .zero := by
  have huri : (unready (afar (.whole 1800)) none (localeValue none)).uri = afarUri :=
    uri_far rfl rfl
  have hfar : farService.uri = afarUri := uri_far rfl rfl
  have hcache : IsCacheFolder (farWorld emptyReply .zero).folders.cache ["cache"] :=
    Catalogs.isCacheFolder_cache
  have hholds := holds_far emptyReply .zero
  rw [← huri] at hholds
  obtain ⟨new, r, s, w, hrenews, hprepare⟩ := exists_renews_prepare usesNetwork_far hcache hholds
  have hkept : ¬ IsKept (unready (afar (.whole 1800)) none (localeValue none)).catalogs
      (farWorld emptyReply .zero) (unready (afar (.whole 1800)) none (localeValue none)).uri := by
    intro h
    obtain ⟨f, hlast, -⟩ := (Catalogs.isKept_iff hholds hcache rfl).1 h
    cases hlast
  have hreply : (farWorld emptyReply .zero).reply
      (unready (afar (.whole 1800)) none (localeValue none)).uri
      = .content (.document (.dict [])) [] := by
    rw [huri]
    simp [farWorld, World.reply, emptyReply]
  obtain ⟨rfl, rfl, rfl⟩ := hrenews.of_catalog hkept hreply rfl ofCatalog_empty
  have hstart : Service.start (some "/c") none (localeValue none) (farWorld emptyReply .zero)
      = (.ok farService, w) := start_of_prepare (ofConfiguration_far emptyReply .zero) hprepare
  have hfetches := hrenews.fetchesBetween_eq
  have hrun : RemoteRun ["cache"] times permits farService w
      (fetchesBetween farService.uri (farWorld emptyReply .zero) w ++ []) :=
    .start hstart (Catalogs.isRemote_afar _) hcache
      (by rw [hfar]; exact holds_far emptyReply .zero) (by simp) htime
  rw [huri] at hfetches
  rw [hfar, hfetches] at hrun
  exact ⟨w, hrun, hrenews.clock_eq⟩

/-- A run goes on at a later time, with another reply for the English catalog. -/
theorem RemoteRun.exists_later (h : RemoteRun folder times permits s w past) (reply : Reply)
    (now : Double) (hlater : seconds w.clock ≤ seconds now) (htime : now ∈ times) :
    ∃ w', RemoteRun folder times permits s w' past ∧ w'.clock = now ∧ w'.reply afarUri = reply := by
  refine ⟨{ w.withReply afarUri reply with clock := now },
    h.change ⟨rfl, fun _ _ => rfl, hlater⟩ htime, rfl, ?_⟩
  simp [World.withReply, World.reply]

theorem exists_staleMessage (age : Double) :
    ∃ message, staleMessage age (.whole 1800) = .ok message := by
  have hwritable : Decimal.isWritable 1800 = true :=
    (Decimal.digits_le_limit_iff 1800).1 (by decide)
  rw [staleMessage, Quantity.toValue, Value.display, Value.isWritable, hwritable]
  exact ⟨_, rfl⟩

/-- A look that finds messages older than half an hour. -/
theorem findsStale_of_halfHour {age : Double} (hown : s.injected = none)
    (hmax : s.catalogs.settings.maxAge = .whole 1800) (hdue : s.isTooEarly w.clock = false)
    (hage : s.age w.clock = some age) (hold : Quantity.isBelow (.whole 1800) age = true) :
    ∃ w₀, FindsStale s w (s.looked w.clock) w₀ := by
  obtain ⟨message, hmessage⟩ := exists_staleMessage age
  rw [← hmax] at hold hmessage
  exact ⟨_, hown, hdue, ⟨age, message, hage, hold, hmessage, rfl⟩, rfl⟩

/-- After 2000 seconds the messages are too old. -/
theorem findsStale_far (htime : w.clock = later) :
    ∃ w₀, FindsStale farService w (farService.looked later) w₀ := by
  have hdue : farService.isTooEarly later = false := by decide +kernel
  have hage : farService.age later = some later := by decide +kernel
  have hold : Quantity.isBelow (.whole 1800) later = true := by decide +kernel
  rw [← htime] at hdue hage hold ⊢
  exact findsStale_of_halfHour rfl rfl hdue hage hold

/-- The kept catalog is then too old as well, so the network is asked. -/
theorem exists_renews_far (hrun : RemoteRun ["cache"] times permits farService w [emptyFetch .zero])
    (htime : w.clock = later) (hstale : FindsStale farService w s₀ w₀) {whole : Content}
    {chunks : List ByteArray} (hreply : w.reply afarUri = .content whole chunks) :
    ∃ new r s' w', reload s₀ w₀ = (r, s', w')
      ∧ Renews ["cache"] s₀ w₀ [emptyFetch .zero] new r s' w'
      ∧ ¬ IsKept s₀.catalogs w₀ s₀.uri ∧ w₀.reply s₀.uri = .content whole chunks := by
  have hidle := hstale.idles
  have h₀ := hrun.isTracked.idles hidle
  have huri : s₀.uri = afarUri := (uri_of_setup hidle.setup_eq).trans (uri_far rfl rfl)
  have hlast : lastFetch s₀.uri [emptyFetch .zero] = some (emptyFetch .zero) := by
    rw [huri]
    rfl
  have hold : s₀.catalogs.settings.maxAge.isAtLeast (w₀.clock.sub .zero) = false := by
    rw [settings_of_setup hidle.setup_eq, hidle.world.clock, htime]
    decide +kernel
  obtain ⟨new, r, s', w', hrenews, hreload⟩ := exists_renews_reload h₀.network h₀.cache h₀.holds
  refine ⟨new, r, s', w', hreload, hrenews, h₀.not_isKept hlast hold, ?_⟩
  rw [huri, World.reply, hidle.world.web, ← World.reply]
  exact hreply

theorem seconds_later : seconds .zero ≤ seconds later := by decide +kernel

/-- A check that finds the messages too old. -/
def farCheck : Call := .check (.list []) .null

/-- A check after 2000 seconds that asks the network and gets the catalog. -/
theorem refetch_of_run_far :
    IsExact twoTimes ∧ farService.catalogs.settings.maxAge.value? = some 1800
      ∧ ∃ w s₀ w₀, RemoteRun ["cache"] twoTimes Call.LoadsWell farService w [emptyFetch .zero]
        ∧ farCheck.Reloads farService w s₀ w₀
        ∧ (∃ r s₁ w₁, reload s₀ w₀ = (r, s₁, w₁)
          ∧ w₁.calls = w₀.calls ++ [Catalogs.request farService.uri])
        ∧ farCheck.LoadsWell farService w
        ∧ ∃ r s' w', farCheck.run farService w = (r, s', w')
          ∧ ∃ f ∈ fetchesBetween farService.uri w w' ++ [emptyFetch .zero], f.uri = farService.uri
            ∧ seconds w'.clock - seconds f.time < 2 * 1800 + 300 := by
  obtain ⟨w₁, hstart, hzero⟩ := remoteRun_far Call.LoadsWell twoTimes (.inl rfl)
  obtain ⟨w, hrun, htime, hreply⟩ := hstart.exists_later emptyReply later
    (by rw [hzero]; exact seconds_later) (.inr rfl)
  have hloads : farCheck.LoadsWell farService w := by
    intro s₀ w₀ h
    cases h with
    | check hstale =>
      obtain ⟨new, r, s', w', hreload, hrenews, hkept, hreply₀⟩ :=
        exists_renews_far hrun htime hstale hreply
      obtain ⟨-, hok, -⟩ := hrenews.of_catalog hkept hreply₀ rfl ofCatalog_empty
      rw [hreload]
      exact hok
  obtain ⟨w₀, hstale⟩ := findsStale_far htime
  have hreloads : farCheck.Reloads farService w (farService.looked later) w₀ := .check hstale
  obtain ⟨hasks, hfetch⟩ := refetch_of_run isExact_twoTimes hrun rfl
  obtain ⟨r, s₁, w₂, hreload, hcalls⟩ := hasks _ _ _ (by simp [farCheck]) hreloads
  rcases hcall : farCheck.run farService w with ⟨r', s', w'⟩
  obtain ⟨f, hf, huri, -, hyoung⟩ :=
    hfetch (fun _ _ _ h => h) farCheck _ _ _ _ (.check _ _) hloads hcall
  refine ⟨isExact_twoTimes, rfl, w, _, w₀, hrun, hreloads, ⟨r, s₁, w₂, hreload, ?_⟩, hloads,
    r', s', w', hcall, f, hf, huri, hyoung⟩
  refine hcalls.resolve_right ?_
  rintro ⟨-, f, g, hlast, hunreadable, -⟩
  rw [uri_far rfl rfl] at hlast
  cases hlast
  exact hunreadable ⟨.dict [], rfl⟩

/-- A text with a character that no document may hold. -/
def unreadable : Content := .bytes ⟨#[1]⟩

theorem asDocument_unreadable : ∃ f, unreadable.asDocument = .error f := by
  have hnot : unreadable.asDocument.isOk = false := by decide +kernel
  cases hread : unreadable.asDocument with
  | error f => exact ⟨f, rfl⟩
  | ok document =>
    rw [hread] at hnot
    cases hnot

theorem not_isReadable_unreadable : ¬ unreadable.IsReadable := by
  rintro ⟨document, hdocument⟩
  obtain ⟨f, hread⟩ := asDocument_unreadable
  cases hread.symm.trans hdocument

/-- Five minutes later still, in seconds: 2300. -/
def muchLater : Double := .finite false 0x40A1F80000000000 (by decide)

/-- The times at which the catalog comes, cannot be read, and comes again. -/
def threeTimes : Set Double := {.zero, later, muchLater}

theorem isExact_threeTimes : IsExact threeTimes := by
  rintro a (rfl | rfl | rfl) b (rfl | rfl | rfl) <;> decide +kernel

/-- A check after 2000 seconds that asks the network and gets what cannot be read. It
notes that it looked, and the folder holds what came. -/
theorem remoteRun_unreadable :
    ∃ w, RemoteRun ["cache"] threeTimes (fun _ _ _ => True) (farService.looked later) w
        [⟨afarUri, unreadable, later⟩, emptyFetch .zero] ∧ w.clock = later := by
  obtain ⟨w₁, hstart, hzero⟩ := remoteRun_far (fun _ _ _ => True) threeTimes (.inl rfl)
  obtain ⟨w, hrun, htime, hreply⟩ := hstart.exists_later (.content unreadable []) later
    (by rw [hzero]; exact seconds_later) (.inr (.inl rfl))
  obtain ⟨w₀, hstale⟩ := findsStale_far htime
  obtain ⟨new, r, s', w', hreload, hrenews, hkept, hreply₀⟩ :=
    exists_renews_far hrun htime hstale hreply
  obtain ⟨f, hread⟩ := asDocument_unreadable
  obtain ⟨rfl, rfl, rfl⟩ := hrenews.of_unreadable hkept hreply₀ hread
  have hreloads : farCheck.Reloads farService w (farService.looked later) w₀ := .check hstale
  have hclock : w₀.clock = later := hstale.start.2.trans htime
  have huri : (farService.looked later).uri = afarUri := uri_far rfl rfl
  have hfetches : fetchesBetween farService.uri w w' = [⟨afarUri, unreadable, later⟩] := by
    rw [Catalogs.fetchesBetween_congr hstale.idles.world (.refl w'), ← huri, ← hclock]
    exact hrenews.fetchesBetween_eq
  have hnext := hrun.call farCheck trivial
    (hreloads.run_of_error hrun.isTracked.network.configured hreload)
  rw [hfetches] at hnext
  exact ⟨w', hnext, hrenews.clock_eq.trans hclock⟩

/-- Once a content came that cannot be read, a look that finds the messages too old
goes on to a reload that does not ask the network, although it has the catalog again. -/
theorem reload_of_unreadable :
    IsExact threeTimes ∧ ∃ s w past s₀ w₀ f s₁ w₁,
      RemoteRun ["cache"] threeTimes (fun _ _ _ => True) s w past
        ∧ s.catalogs.settings.maxAge.value? = some 1800
        ∧ farCheck.Reloads s w s₀ w₀ ∧ w.reply s.uri = emptyReply
        ∧ reload s₀ w₀ = (.error f, s₁, w₁) ∧ w₁.calls = w₀.calls := by
  obtain ⟨w₁, hfailed, hclock⟩ := remoteRun_unreadable
  obtain ⟨w, hrun, htime, hreply⟩ := hfailed.exists_later emptyReply muchLater
    (by rw [hclock]; decide +kernel) (.inr (.inr rfl))
  have hdue : (farService.looked later).isTooEarly muchLater = false := by decide +kernel
  have hage : (farService.looked later).age muchLater = some muchLater := by decide +kernel
  have hold : Quantity.isBelow (.whole 1800) muchLater = true := by decide +kernel
  rw [← htime] at hdue
  obtain ⟨w₀, hstale⟩ := findsStale_of_halfHour rfl rfl hdue (by rw [htime]; exact hage) hold
  have hreloads : farCheck.Reloads (farService.looked later) w
      ((farService.looked later).looked w.clock) w₀ := .check hstale
  have h₀ := hrun.isTracked.idles hstale.idles
  -- What came is five minutes old, so a load takes it.
  have hyoung : ((farService.looked later).looked w.clock).catalogs.settings.maxAge.isAtLeast
      (w₀.clock.sub later) = true := by
    rw [hstale.start.2, htime]
    decide +kernel
  have hlast : lastFetch ((farService.looked later).looked w.clock).uri
      [⟨afarUri, unreadable, later⟩, emptyFetch .zero] = some ⟨afarUri, unreadable, later⟩ := by
    rw [uri_far rfl rfl]
    rfl
  have hkept := (Catalogs.isKept_iff h₀.holds h₀.cache rfl).2 ⟨_, hlast, hyoung⟩
  obtain ⟨new, r, s₁, w₁, hrenews, hreload⟩ := exists_renews_reload h₀.network h₀.cache h₀.holds
  rcases hrenews.asks with ⟨-, hcalls, f, hf, hread⟩ | ⟨hnot, -⟩
  · obtain rfl := Option.some.inj (hlast.symm.trans hf)
    obtain ⟨g, rfl⟩ := hread.resolve_left not_isReadable_unreadable
    exact ⟨isExact_threeTimes, _, w, _, _, w₀, g, s₁, w₁, hrun, rfl, hreloads,
      by rw [uri_far rfl rfl]; exact hreply, hreload, hcalls⟩
  · exact absurd hkept hnot

end Service

end FieldCheck
