/-
FieldCheck.Proofs.Service.Renewal — messages that come from the network.

A service with a catalog on the network gets its messages by one load, and the
load finds the catalog in the folder or fetches it (`Catalogs.Gets`). `Renews`
goes on from there: what was got may be no document, or one that holds no
messages, and else the messages are replaced. Getting messages at the start and
getting them again are the same in this respect (`exists_renews_prepare`,
`exists_renews_reload`).

Whether a catalog was fetched is read off the requests for it
(`fetchesBetween`), so it does not matter what else was asked for in between.
-/
import FieldCheck.Proofs.Service.Course

namespace FieldCheck

open FieldCheck.Action

namespace Catalogs

variable {folder : List String} {c : Catalogs} {u : String} {w w' w₀ w₁ : World}
  {past new : List Fetch} {r : Except Fault Value} {locale : Option String}

/-! ## Fetches between two worlds -/

/-- The fetches of a catalog on the way from one world to another. There is one
if the network was asked for that catalog and a content came. -/
def fetchesBetween (u : String) (w w' : World) : List Fetch :=
  if w'.calls.count (request u) = w.calls.count (request u) then []
  else
    match w.reply u with
    | .content whole _ => [⟨u, whole, w.clock⟩]
    | _ => []

theorem fetchesBetween_of_background (h : SameBackground w w') : fetchesBetween u w w' = [] :=
  if_pos (h.asked u)

theorem fetchesBetween_congr (h : SameBackground w w₀) (h' : SameBackground w₁ w') :
    fetchesBetween u w w' = fetchesBetween u w₀ w₁ := by
  have hreply : w₀.reply u = w.reply u := by rw [World.reply, World.reply, h.web]
  rw [fetchesBetween, fetchesBetween, h'.asked, h.asked, hreply, h.clock]

theorem fetchesBetween_of_called (hcalls : w'.calls = w.calls ++ [request u]) :
    fetchesBetween u w w' = (match w.reply u with
      | .content whole _ => [⟨u, whole, w.clock⟩]
      | _ => []) := by
  have hne : ¬ w'.calls.count (request u) = w.calls.count (request u) := by
    rw [hcalls, List.count_append, List.count_singleton_self]
    omega
  rw [fetchesBetween, if_neg hne]

theorem Gets.fetchesBetween_eq (h : Gets folder c u w past new r w') :
    fetchesBetween u w w' = new := by
  cases h with
  | kept _ _ => exact if_pos rfl
  | fetched _ hreply => rw [fetchesBetween_of_called rfl, hreply]
  | failed _ hreply =>
    rw [fetchesBetween_of_called rfl]
    rcases hreply with hreply | hreply <;> rw [hreply]

theorem Gets.clock_eq (h : Gets folder c u w past new r w') : w'.clock = w.clock := by
  cases h <;> rfl

theorem Gets.folders_eq (h : Gets folder c u w past new r w') : w'.folders = w.folders := by
  cases h <;> rfl

theorem Gets.time_eq (h : Gets folder c u w past new r w') {f : Fetch} (hf : f ∈ new) :
    f.time = w.clock := by
  cases h with
  | fetched _ _ => rw [List.mem_singleton.1 hf]
  | kept _ _ => cases hf
  | failed _ _ => cases hf

/-- What was got is what the last fetch can be read as, at the time of a new one or not. -/
theorem Gets.exists_lastFetch {document : Value} (h : Gets folder c u w past new r w')
    (hr : r = .ok document) :
    ∃ f, lastFetch u (new ++ past) = some f ∧ f.content.asDocument = .ok document
      ∧ (f.time = w.clock ∨ IsKept c w u ∧ lastFetch u past = some f) := by
  cases h with
  | @kept f hkept hlast =>
    exact ⟨f, hlast, (Content.inFile_eq_ok_iff _ _ _).1 hr, .inr ⟨hkept, hlast⟩⟩
  | @fetched whole chunks _ _ =>
    exact ⟨⟨u, whole, w.clock⟩, by simp [lastFetch], hr, .inl rfl⟩
  | failed _ _ => cases hr

/-- Where nothing was got, nothing that can be read was fetched. -/
theorem Gets.new_of_error {f : Fault} (h : Gets folder c u w past new r w') (hr : r = .error f) :
    new = [] ∨ ∀ g, lastFetch u (new ++ past) = some g → ¬ g.content.IsReadable := by
  cases h with
  | kept _ _ => exact .inl rfl
  | @fetched whole chunks _ _ =>
    refine .inr fun g hg => ?_
    obtain rfl : ⟨u, whole, w.clock⟩ = g := by simpa [lastFetch] using hg
    rintro ⟨document, hdocument⟩
    rw [hr] at hdocument
    cases hdocument
  | failed _ _ => exact .inl rfl

/-- What is kept is taken, and that fails if it cannot be read, or the network is asked once. -/
theorem Gets.asks (h : Gets folder c u w past new r w') :
    (IsKept c w u ∧ w'.calls = w.calls ∧ ∃ f, lastFetch u past = some f
        ∧ (f.content.IsReadable ∨ ∃ g, r = .error g))
      ∨ ¬ IsKept c w u ∧ w'.calls = w.calls ++ [request u] := by
  cases h with
  | @kept f hkept hlast =>
    refine .inl ⟨hkept, rfl, f, hlast, ?_⟩
    cases hread : f.content.inFile (keptPath w.folders u) with
    | error g => exact .inr ⟨g, rfl⟩
    | ok document => exact .inl ⟨document, (Content.inFile_eq_ok_iff _ _ _).1 hread⟩
  | fetched hkept _ => exact .inr ⟨hkept, rfl⟩
  | failed hkept _ => exact .inr ⟨hkept, rfl⟩

/-- Where nothing is kept, the content is got that the network has. -/
theorem Gets.of_content {whole : Content} {chunks : List ByteArray}
    (h : Gets folder c u w past new r w') (hkept : ¬ IsKept c w u)
    (hreply : w.reply u = .content whole chunks) :
    new = [⟨u, whole, w.clock⟩] ∧ r = whole.asDocument := by
  cases h with
  | kept h _ => exact absurd h hkept
  | fetched _ hcontent =>
    obtain ⟨rfl, -⟩ := Reply.content.inj (hcontent.symm.trans hreply)
    exact ⟨rfl, rfl⟩
  | failed _ hfailure =>
    rw [hreply] at hfailure
    simp at hfailure

/-- A location that is none cannot be loaded. -/
theorem load_of_parse_error {f : Fault} (h : Uri.parse (uriOf c.settings locale) = .error f)
    (w : World) : load (Service.localeValue locale) c w = (.error f, c, w) := by
  have hname : (Value.text (localeName c.settings locale)).display
      = .ok (localeName c.settings locale) := rfl
  have hfrom : loadFrom (uriOf c.settings locale) c w = (.error f, c, w) := by
    rw [loadFrom, state_bind, h]
    rfl
  rw [load, state_bind, effectiveLocale_eq, hname, ofExcept_ok_bind]
  exact bind_of_error _ hfrom

end Catalogs

namespace Service

open Catalogs (Fetch Holds Gets IsKept IsCacheFolder IsRemote catalogOf lastFetch fetchesBetween)

variable {s s' : Service} {w w' : World} {folder : List String} {past new : List Fetch}

/-! ## Catalogs on the network -/

/-- The location of the catalog of a service. -/
def uri (s : Service) : String := Catalogs.uriOf s.catalogs.settings s.locale.text?

/-- The messages of the service come from a catalog on the network. -/
structure UsesNetwork (s : Service) : Prop where
  own : s.injected = none
  configured : IsConfigured s
  localeValue_eq : localeValue s.locale.text? = s.locale
  remote : IsRemote s.catalogs.settings.location
  parses : ∃ p, Uri.parse s.uri = .ok p

theorem uri_of_setup (h : s'.setup = s.setup) : s'.uri = s.uri := by
  simp only [setup, Prod.mk.injEq] at h
  rw [uri, uri, h.1, h.2.1]

theorem UsesNetwork.of_setup (h : UsesNetwork s) (hsame : s'.setup = s.setup) :
    UsesNetwork s' := by
  have huri := uri_of_setup hsame
  have hconfigured := h.configured.of_setup hsame
  simp only [setup, Prod.mk.injEq] at hsame
  obtain ⟨hsettings, hlocale, hinjected⟩ := hsame
  exact ⟨by rw [hinjected, h.own], hconfigured, by rw [hlocale, h.localeValue_eq],
    by rw [hsettings]; exact h.remote, by rw [huri]; exact h.parses⟩

/-- A service that was started with a location on the network uses the network. -/
theorem usesNetwork_of_start {config locale : Option String}
    (h : start config none (localeValue locale) w = (.ok s, w'))
    (hremote : IsRemote s.catalogs.settings.location) :
    ∃ c, UsesNetwork (unready c none (localeValue locale)) ∧ s.setup
        = (unready c none (localeValue locale)).setup
      ∧ prepare (unready c none (localeValue locale)) w = (.ok (), s, w') := by
  obtain ⟨c, hc, hprepare⟩ := exists_of_start h
  have hsetup := keeps_prepare ignoresCalls_setup (unready c none (localeValue locale)) w
  rw [hprepare] at hsetup
  have hsetup : s.setup = (unready c none (localeValue locale)).setup := hsetup
  have hsettings : s.catalogs.settings = c.settings := settings_of_setup hsetup
  have hlocale : (unready c none (localeValue locale)).locale
      = .text (Catalogs.localeName c.settings locale) := Catalogs.effectiveLocale_eq _ _
  have hvalue : localeValue (unready c none (localeValue locale)).locale.text?
      = (unready c none (localeValue locale)).locale := by
    rw [hlocale]
    rfl
  rw [hsettings] at hremote
  refine ⟨c, ⟨rfl, isConfigured_unready hc, hvalue, hremote, ?_⟩, hsetup, hprepare⟩
  cases hparse : Uri.parse (unready c none (localeValue locale)).uri with
  | ok p => exact ⟨p, rfl⟩
  | error f =>
    have hload := Catalogs.load_of_parse_error hparse w
    rw [hvalue] at hload
    have hfail : loadMessages (unready c none (localeValue locale)) w
        = (.error f, unready c none (localeValue locale), w) := by
      rw [loadMessages, state_bind, bind_of_error _ (onCatalogs_apply hload)]
    rw [prepare_eq rfl, bind_of_error _ hfail] at hprepare
    cases hprepare

/-! ## Renewal -/

/-- How a service gets its messages when they come from the network, and what is
fetched for that. -/
inductive Renews (folder : List String) (s : Service) (w : World) (past : List Fetch) :
    List Fetch → Except Fault Unit → Service → World → Prop
  | unavailable {new : List Fetch} {f : Fault} {w' : World}
      (h : Gets folder s.catalogs s.uri w past new (.error f) w') :
      Renews folder s w past new (.error f) s w'
  | malformed {new : List Fetch} {document : Value} {f : Fault} {w' : World}
      (h : Gets folder s.catalogs s.uri w past new (.ok document) w')
      (hmessages : Messages.ofCatalog (catalogOf document) = .error f) :
      Renews folder s w past new (.error f) (s.noted w.clock) w'
  | renewed {new : List Fetch} {document : Value} {m : Messages} {w' : World}
      (h : Gets folder s.catalogs s.uri w past new (.ok document) w')
      (hmessages : Messages.ofCatalog (catalogOf document) = .ok m) (rs : List LogRecord) :
      Renews folder s w past new (.ok ()) (s.renewed m w.clock) (w'.logged rs)

theorem exists_renews_prepare (hs : UsesNetwork s) (hcache : IsCacheFolder w.folders.cache folder)
    (hholds : Holds {s.uri} folder w.files past) :
    ∃ new r s' w', Renews folder s w past new r s' w' ∧ prepare s w = (r, s', w') := by
  obtain ⟨p, hp⟩ := hs.parses
  obtain ⟨new, r, w', hgets, hload⟩ := Catalogs.exists_gets hholds hcache hs.remote hp rfl rfl
  rw [hs.localeValue_eq] at hload
  rw [prepare_eq hs.own]
  cases r with
  | error f =>
    have hfail : loadMessages s w = (.error f, s, w') := by
      rw [loadMessages, state_bind, bind_of_error _ (onCatalogs_apply hload)]
      rfl
    exact ⟨_, _, _, _, .unavailable hgets, bind_of_error _ hfail⟩
  | ok document =>
    cases hm : Messages.ofCatalog (catalogOf document) with
    | error f =>
      have hfail : loadMessages s w = (.error f, s.noted w.clock, w') := by
        rw [loadMessages, state_bind, bind_of_ok _ (onCatalogs_apply hload), hm]
        rfl
      exact ⟨_, _, _, _, .malformed hgets hm, bind_of_error _ hfail⟩
    | ok m =>
      obtain ⟨rs, hgot⟩ : ∃ rs, loadMessages s w = (.ok m, s.noted w.clock, w'.logged rs) := by
        rw [loadMessages, state_bind, bind_of_ok _ (onCatalogs_apply hload), hm]
        exact ⟨_, rfl⟩
      refine ⟨_, _, _, _, .renewed hgets hm rs, ?_⟩
      rw [bind_of_ok _ hgot, ← hgets.clock_eq]
      rfl

/-- Messages are got again as they are got at the start. -/
theorem exists_renews_reload (hs : UsesNetwork s) (hcache : IsCacheFolder w.folders.cache folder)
    (hholds : Holds {s.uri} folder w.files past) :
    ∃ new r s' w', Renews folder s w past new r s' w' ∧ reload s w = (r, s', w') := by
  obtain ⟨new, r, s', w', hrenews, hprepare⟩ := exists_renews_prepare hs hcache hholds
  cases hrenews with
  | unavailable h => exact ⟨_, _, _, _, .unavailable h, bind_of_error _ hprepare⟩
  | malformed h hm => exact ⟨_, _, _, _, .malformed h hm, bind_of_error _ hprepare⟩
  | renewed h hm rs =>
    refine ⟨_, _, _, _, .renewed h hm (rs ++ [⟨.info, .service,
      "Message catalog reloaded for locale " ++ s.locale.quoted⟩]), ?_⟩
    rw [reload, bind_of_ok _ hprepare, ← World.logged_logged]
    rfl

variable {r : Except Fault Unit}

theorem Renews.setup_eq (h : Renews folder s w past new r s' w') : s'.setup = s.setup := by
  cases h <;> rfl

/-- Behind the load, nothing is done to the world but to log. -/
theorem Renews.exists_gets (h : Renews folder s w past new r s' w') : ∃ got w₁ rs,
    Gets folder s.catalogs s.uri w past new got w₁ ∧ (∀ f, got = .error f → r = .error f)
      ∧ w' = w₁.logged rs := by
  cases h with
  | unavailable h =>
    refine ⟨_, _, [], h, ?_, (World.logged_nil _).symm⟩
    rintro f ⟨⟩
    rfl
  | malformed h _ => exact ⟨_, _, [], h, by simp, (World.logged_nil _).symm⟩
  | renewed h _ rs => exact ⟨_, _, rs, h, by simp, rfl⟩

theorem Renews.asks (h : Renews folder s w past new r s' w') :
    (IsKept s.catalogs w s.uri ∧ w'.calls = w.calls ∧ ∃ f, lastFetch s.uri past = some f
        ∧ (f.content.IsReadable ∨ ∃ g, r = .error g))
      ∨ ¬ IsKept s.catalogs w s.uri ∧ w'.calls = w.calls ++ [Catalogs.request s.uri] := by
  obtain ⟨got, w₁, rs, hgets, hfail, rfl⟩ := h.exists_gets
  rcases hgets.asks with ⟨hkept, hcalls, f, hlast, hreadable | ⟨g, hg⟩⟩ | hasked
  · exact .inl ⟨hkept, hcalls, f, hlast, .inl hreadable⟩
  · exact .inl ⟨hkept, hcalls, f, hlast, .inr ⟨g, hfail g hg⟩⟩
  · exact .inr hasked

variable {whole : Content} {chunks : List ByteArray}

/-- Where nothing is kept and a content comes that cannot be read, the service stays as it is. -/
theorem Renews.of_unreadable {f : Fault} (h : Renews folder s w past new r s' w')
    (hkept : ¬ IsKept s.catalogs w s.uri) (hreply : w.reply s.uri = .content whole chunks)
    (hread : whole.asDocument = .error f) :
    new = [⟨s.uri, whole, w.clock⟩] ∧ r = .error f ∧ s' = s := by
  cases h with
  | unavailable hgets =>
    obtain ⟨rfl, hgot⟩ := hgets.of_content hkept hreply
    rw [hread] at hgot
    cases hgot
    exact ⟨rfl, rfl, rfl⟩
  | malformed hgets _ =>
    obtain ⟨-, hgot⟩ := hgets.of_content hkept hreply
    rw [hread] at hgot
    cases hgot
  | renewed hgets _ rs =>
    obtain ⟨-, hgot⟩ := hgets.of_content hkept hreply
    rw [hread] at hgot
    cases hgot

/-- Where nothing is kept and a catalog comes, its messages replace the old ones. -/
theorem Renews.of_catalog {document : Value} {m : Messages} (h : Renews folder s w past new r s' w')
    (hkept : ¬ IsKept s.catalogs w s.uri) (hreply : w.reply s.uri = .content whole chunks)
    (hread : whole.asDocument = .ok document)
    (hcatalog : Messages.ofCatalog (catalogOf document) = .ok m) :
    new = [⟨s.uri, whole, w.clock⟩] ∧ r = .ok () ∧ s' = s.renewed m w.clock := by
  cases h with
  | unavailable hgets =>
    obtain ⟨-, hgot⟩ := hgets.of_content hkept hreply
    rw [hread] at hgot
    cases hgot
  | malformed hgets hmessages =>
    obtain ⟨-, hgot⟩ := hgets.of_content hkept hreply
    rw [hread] at hgot
    cases hgot
    rw [hcatalog] at hmessages
    cases hmessages
  | renewed hgets hmessages rs =>
    obtain ⟨rfl, hgot⟩ := hgets.of_content hkept hreply
    rw [hread] at hgot
    cases hgot
    rw [hcatalog] at hmessages
    cases hmessages
    exact ⟨rfl, rfl, rfl⟩

theorem Renews.clock_eq (h : Renews folder s w past new r s' w') : w'.clock = w.clock := by
  obtain ⟨got, w₁, rs, hgets, -, rfl⟩ := h.exists_gets
  exact hgets.clock_eq

theorem Renews.folders_eq (h : Renews folder s w past new r s' w') : w'.folders = w.folders := by
  obtain ⟨got, w₁, rs, hgets, -, rfl⟩ := h.exists_gets
  exact hgets.folders_eq

theorem Renews.time_eq (h : Renews folder s w past new r s' w') {f : Fetch} (hf : f ∈ new) :
    f.time = w.clock := by
  obtain ⟨got, w₁, rs, hgets, -, rfl⟩ := h.exists_gets
  exact hgets.time_eq hf

theorem Renews.fetchesBetween_eq (h : Renews folder s w past new r s' w') :
    fetchesBetween s.uri w w' = new := by
  obtain ⟨got, w₁, rs, hgets, -, rfl⟩ := h.exists_gets
  exact hgets.fetchesBetween_eq

theorem Renews.holds (h : Renews folder s w past new r s' w')
    (hholds : Holds {s.uri} folder w.files past) :
    Holds {s.uri} folder w'.files (new ++ past) := by
  obtain ⟨got, w₁, rs, hgets, -, rfl⟩ := h.exists_gets
  exact hgets.holds hholds (Set.injOn_singleton _ _) rfl

end Service

end FieldCheck
