/-
FieldCheck.Proofs.Catalogs.Cache — what the folder of kept catalogs holds.

Catalogs from the network are kept, and a load looks at what is kept before it
asks the network. No single load shows that it may rely on what it finds there:
that it is the catalog of this location and no other, and as old as the file.
What is kept along a run is that the folder `Holds` the last fetch for each
location, in a file with the time of that fetch. A load asks the network once or
not at all, and whether it does is read off the file alone (`load_of_run`).

The age is compared by `Quantity.isAtLeast`. For numbers that is not to be
greater, but nothing compares with `nan`: a configuration that allows `nan`
seconds has every catalog fetched again (`load_again_of_nan`).
-/
import Mathlib.Data.Set.Function
import FieldCheck.Proofs.Catalogs.Location
import FieldCheck.Proofs.Number.Order
import FieldCheck.Proofs.Service.Calls

namespace FieldCheck

open FieldCheck.Action

namespace Catalogs

open FilePath (IsName rooted)

/-! ## Fetches -/

/-- A content that came from a location at a time. -/
structure Fetch where
  uri : String
  content : Content
  time : Double

/-- The last fetch from a location, of some fetches with the last one in front. -/
def lastFetch (uri : String) (past : List Fetch) : Option Fetch := past.find? fun f => f.uri = uri

theorem uri_of_lastFetch {uri : String} {past : List Fetch} {f : Fetch}
    (h : lastFetch uri past = some f) : f.uri = uri := by
  simpa using List.find?_some h

/-- The request for a catalog. -/
def request (uri : String) : Call := ⟨uri, fetchTimeout, false, false, none⟩

/-- The world after a content came from a location and was kept in a folder. -/
def keeping (w : World) (folder : List String) (uri : String) (content : Content) : World :=
  { w.called (request uri) with
    files := w.files.putFile (folder ++ [keptName uri]) content w.clock }

/-- The fetches in the course of a load that leads from one world to another.
There is one if the network was asked and a content came. -/
def fetches (uri : String) (w w' : World) : List Fetch :=
  if w'.calls = w.calls then []
  else
    match w.reply uri with
    | .content whole _ => [⟨uri, whole, w.clock⟩]
    | _ => []

/-- The contents that the network has can be read as documents. -/
def Readable (web : List (String × Reply)) : Prop :=
  ∀ url whole chunks, (url, Reply.content whole chunks) ∈ web →
    ∃ document, whole.asDocument = .ok document

theorem Readable.of_reply {w : World} (h : Readable w.web) {uri : String} {whole : Content}
    {chunks : List ByteArray} (hreply : w.reply uri = .content whole chunks) :
    ∃ document, whole.asDocument = .ok document := by
  rw [World.reply] at hreply
  cases hfind : w.web.find? fun r => r.1 = uri with
  | none => simp [hfind] at hreply
  | some r =>
    obtain ⟨url, reply⟩ := r
    simp only [hfind] at hreply
    subst hreply
    exact h url whole chunks (List.mem_of_find?_eq_some hfind)

/-! ## Kept catalogs -/

/-- The folder holds the last fetch from each of some locations, and nothing for
those from which nothing was fetched. -/
structure Holds (uris : Set String) (folder : List String) (t : Files) (past : List Fetch) :
    Prop where
  clear : t.IsClear folder
  made : past ≠ [] → t.IsMade folder
  kept : ∀ u ∈ uris, t.entryAt (folder ++ [keptName u])
    = (lastFetch u past).map fun f => .file f.content f.time

variable {uris : Set String} {folder : List String} {past : List Fetch} {c c' : Catalogs}
  {w w' : World} {u : String} {f : Fetch}

theorem lookupFrom_of_fetch (h : Holds uris folder w.files past)
    (hcache : IsCacheFolder w.folders.cache folder) (hu : u ∈ uris)
    (hlast : lastFetch u past = some f) (work : String) :
    w.files.lookupFrom work (keptPath w.folders u) = .ok (.file f.content f.time) := by
  have hpast : past ≠ [] := by
    rintro rfl
    simp [lastFetch] at hlast
  rw [keptPath_rooted hcache]
  refine Files.lookupFrom_of_isMade hcache.names (isName_keptName u) (hcache.short_kept u)
    (h.made hpast) ?_ work
  rw [h.kept u hu, hlast]
  rfl

theorem lookupFrom_of_no_fetch (h : Holds uris folder w.files past)
    (hcache : IsCacheFolder w.folders.cache folder) (hu : u ∈ uris)
    (hlast : lastFetch u past = none) (work : String) :
    w.files.lookupFrom work (keptPath w.folders u) = .error .missing := by
  rw [keptPath_rooted hcache]
  refine Files.lookupFrom_of_free hcache.names (isName_keptName u) (hcache.short_kept u) h.clear
    ?_ work
  rw [h.kept u hu, hlast]
  rfl

/-- The catalog of a location is kept, and it is not too old. -/
def IsKept (c : Catalogs) (w : World) (u : String) : Prop :=
  ∃ content time, w.files.lookup (keptPath w.folders u) = .ok (.file content time)
    ∧ c.settings.maxAge.isAtLeast (w.clock.sub time) = true

/-- A catalog that is kept is the last one that was fetched. -/
theorem isKept_iff (h : Holds uris folder w.files past)
    (hcache : IsCacheFolder w.folders.cache folder) (hu : u ∈ uris) :
    IsKept c w u ↔ ∃ f, lastFetch u past = some f
      ∧ c.settings.maxAge.isAtLeast (w.clock.sub f.time) = true := by
  cases hlast : lastFetch u past with
  | none =>
    have hlookup : w.files.lookup _ = _ := lookupFrom_of_no_fetch h hcache hu hlast "/"
    simp [IsKept, hlookup]
  | some f =>
    have hlookup : w.files.lookup _ = _ := lookupFrom_of_fetch h hcache hu hlast "/"
    simp [IsKept, hlookup]

theorem isFresh_eq_true_iff (h : Holds uris folder w.files past)
    (hcache : IsCacheFolder w.folders.cache folder) (hu : u ∈ uris) :
    isFresh c.settings.maxAge w (keptPath w.folders u) = true ↔ IsKept c w u := by
  cases hlast : lastFetch u past with
  | none =>
    have hlookup : w.files.lookup _ = _ := lookupFrom_of_no_fetch h hcache hu hlast "/"
    simp [IsKept, isFresh, hlookup]
  | some f =>
    have hlookup : w.files.lookup _ = _ := lookupFrom_of_fetch h hcache hu hlast "/"
    simp [IsKept, isFresh, hlookup, Entry.modified]

theorem isFresh_of_not_isKept (h : Holds uris folder w.files past)
    (hcache : IsCacheFolder w.folders.cache folder) (hu : u ∈ uris) (hkept : ¬ IsKept c w u) :
    isFresh c.settings.maxAge w (keptPath w.folders u) = false := by
  rw [Bool.eq_false_iff, ne_eq, isFresh_eq_true_iff h hcache hu]
  exact hkept

/-- The folder of kept catalogs never stands in the way of a new one. -/
theorem keep_eq (h : Holds uris folder w.files past)
    (hcache : IsCacheFolder w.folders.cache folder) (hu : u ∈ uris) (content : Content)
    (now : Double) : keep w.folders.cache (keptPath w.folders u) content now w.files
      = .ok (w.files.putFile (folder ++ [keptName u]) content now) := by
  have hfile : (∃ content time, w.files.lookup (keptPath w.folders u) = .ok (.file content time))
      ∨ w.files.lookup (keptPath w.folders u) = .error .missing := by
    cases hlast : lastFetch u past with
    | none => exact .inr (lookupFrom_of_no_fetch h hcache hu hlast "/")
    | some f => exact .inl ⟨_, _, lookupFrom_of_fetch h hcache hu hlast "/"⟩
  have hfolder : w.files.lookup w.folders.cache = .error .missing
      ∨ ∃ time, w.files.lookup w.folders.cache = .ok (.folder time) := by
    have hshort : (rooted folder).utf8ByteSize < Files.pathLimit := by
      have := hcache.short
      rw [← hcache.path_eq]
      omega
    have hlookup := Files.lookup_folder hcache.ne_nil hcache.names hshort h.clear
    rw [← hcache.path_eq] at hlookup
    exact hlookup
  have hplace : FilePath.collapsed (FilePath.steps (keptPath w.folders u))
      = folder ++ [keptName u] := by
    rw [keptPath_rooted hcache]
    exact FilePath.collapsed_steps_rooted (by simp)
      (Files.names_concat hcache.names (isName_keptName u))
  -- Either way the path is free or leads to a file, and the folder is there or can be made.
  rw [keep, hplace]
  rcases hfolder with hfolder | ⟨time, hfolder⟩ <;> rcases hfile with ⟨_, _, hfile⟩ | hfile <;>
    simp [hfolder, hfile]

/-- A new fetch that is kept leaves those from other locations as they are, if no
two locations have one digest. -/
theorem Holds.putFile {t : Files} (h : Holds uris folder t past)
    (hdigest : Set.InjOn (fun u : String => Sha256.hexDigest u.toUTF8.toList) uris) (hu : u ∈ uris)
    (content : Content) (now : Double) :
    Holds uris folder (t.putFile (folder ++ [keptName u]) content now) (⟨u, content, now⟩ :: past)
    where
  clear := (Files.isMade_putFile h.clear _ content now).isClear
  made := fun _ => Files.isMade_putFile h.clear _ content now
  kept := by
    intro v hv
    by_cases hvu : v = u
    · subst hvu
      rw [Files.putFile, Files.entryAt_put_self _ _ (by simp)]
      simp [lastFetch]
    · have hname : keptName v ≠ keptName u := fun e => hvu (hdigest hv hu (keptName_inj.1 e))
      have hplace : folder ++ [keptName v] ≠ folder ++ [keptName u] := by simpa using hname
      -- No folder is made in the place of a kept catalog.
      have hway : ¬ folder ++ [keptName v] <+: folder := by
        intro hprefix
        have hlength := hprefix.length_le
        rw [List.length_append, List.length_singleton] at hlength
        omega
      have huv : ¬ u = v := fun e => hvu e.symm
      rw [Files.entryAt_putFile t content now hplace, Files.entryAt_withFolders]
      simp [hway, h.kept v hv, lastFetch, huv]

/-! ## Catalogs from the network -/

theorem loadRemote_of_isKept (h : Holds uris folder w.files past)
    (hcache : IsCacheFolder w.folders.cache folder) (hu : u ∈ uris) (hkept : IsKept c w u)
    (hlast : lastFetch u past = some f) :
    loadRemote u c w = (f.content.inFile (keptPath w.folders u), c,
      w.logged [⟨.debug, .catalogs, "Using cached message catalog for " ++ u⟩]) := by
  have hfile := lookupFrom_of_fetch h hcache hu hlast w.folders.work
  have hread : w.files.read w.folders.work (keptPath w.folders u) = .ok f.content := by
    rw [keptPath_rooted hcache] at hfile ⊢
    exact Files.read_rooted (Files.names_concat hcache.names (isName_keptName u)) hfile
  have hdocument : ∀ rs, (w.logged rs).readDocument (keptPath w.folders u)
      = f.content.inFile (keptPath w.folders u) := by
    intro rs
    have hsame : (w.logged rs).read (keptPath w.folders u) = .ok f.content := hread
    rw [World.readDocument, hsame]
  rw [loadRemote_of_isFresh ((isFresh_eq_true_iff h hcache hu).2 hkept), readFile, world_bind,
    hdocument]
  rfl

theorem fetch_of_content {whole : Content} {chunks : List ByteArray}
    (hreply : w.reply u = .content whole chunks) :
    fetch u c w = (.ok whole, c, w.called (request u)) := by
  rw [fetch, world_bind, hreply]
  rfl

theorem fetch_of_failure {m : String}
    (hreply : w.reply u = .unreachable m ∨ w.reply u = .refused m) :
    fetch u c w = (.error (.fetchFailed u m), c, w.called (request u)) := by
  rcases hreply with hreply | hreply
  · rw [fetch, world_bind, hreply]
    rfl
  · rw [fetch, world_bind, hreply]
    rfl

theorem loadRemote_of_content (h : Holds uris folder w.files past)
    (hcache : IsCacheFolder w.folders.cache folder) (hu : u ∈ uris) (hkept : ¬ IsKept c w u)
    {whole : Content} {chunks : List ByteArray} (hreply : w.reply u = .content whole chunks) :
    loadRemote u c w = (whole.asDocument, c, keeping w folder u whole) := by
  have hstore : store (keptPath w.folders u) whole c (w.called (request u))
      = (.ok (), c, keeping w folder u whole) := by
    have hkeep : keep (w.called (request u)).folders.cache (keptPath w.folders u) whole
        (w.called (request u)).clock (w.called (request u)).files
        = .ok (w.files.putFile (folder ++ [keptName u]) whole w.clock) :=
      keep_eq h hcache hu whole w.clock
    rw [store, world_bind, hkeep]
    rfl
  rw [loadRemote_of_not_isFresh (isFresh_of_not_isKept h hcache hu hkept),
    bind_of_ok _ (fetch_of_content hreply), bind_of_ok _ hstore]
  rfl

theorem loadRemote_of_failure (h : Holds uris folder w.files past)
    (hcache : IsCacheFolder w.folders.cache folder) (hu : u ∈ uris) (hkept : ¬ IsKept c w u)
    {m : String} (hreply : w.reply u = .unreachable m ∨ w.reply u = .refused m) :
    loadRemote u c w = (.error (.fetchFailed u m), c, w.called (request u)) := by
  rw [loadRemote_of_not_isFresh (isFresh_of_not_isKept h hcache hu hkept),
    bind_of_error _ (fetch_of_failure hreply)]

/-! ## Loads -/

/-- The locale that is meant: nothing and the empty text stand for the default one. -/
def localeName (s : Settings) (locale : Option String) : String :=
  (locale.filter fun l => l ≠ "").getD s.defaultLocale

/-- The location of the catalog of a locale. -/
def uriOf (s : Settings) (locale : Option String) : String := s.catalogUri (localeName s locale)

theorem effectiveLocale_eq (s : Settings) (locale : Option String) :
    s.effectiveLocale (Service.localeValue locale) = .text (localeName s locale) := by
  cases locale with
  | none => rfl
  | some l =>
    by_cases h : l = ""
    · subst h
      rfl
    · have htruthy : (Value.text l).truthy = true := by simpa [Value.truthy] using h
      have hlocale : (Option.some l).filter (fun l => l ≠ "") = some l := by simp [h]
      rw [localeName, hlocale]
      exact if_pos htruthy

/-- What a load gives for a document: an empty one is an empty catalog. -/
def catalogOf (document : Value) : Value := if document.truthy then document else .dict []

/-- The location is on the network. -/
def IsRemote (location : String) : Prop :=
  Uri.schemeIn location = "http" ∨ Uri.schemeIn location = "https"

theorem loadFrom_of_isRemote (hremote : IsRemote c.settings.location) {name : String} {p : Uri}
    (hparse : Uri.parse (c.settings.catalogUri name) = .ok p) (w : World) :
    loadFrom (c.settings.catalogUri name) c w = loadRemote (c.settings.catalogUri name) c w := by
  have hne : Uri.schemeIn c.settings.location ≠ "" := by
    rcases hremote with h | h <;> rw [h] <;> decide
  have hscheme : p.scheme = "http" ∨ p.scheme = "https" := by
    rw [Settings.scheme_catalogUri hne hparse]
    exact hremote
  rw [loadFrom, state_bind, hparse, ofExcept_ok_bind]
  rcases hscheme with h | h <;> simp [h]

/-- A load of a catalog from the network ends as getting it there does. -/
theorem load_of_loadRemote (hremote : IsRemote c.settings.location) {locale : Option String}
    {p : Uri} (hparse : Uri.parse (uriOf c.settings locale) = .ok p) {r : Except Fault Value}
    (h : loadRemote (uriOf c.settings locale) c w = (r, c, w')) :
    load (Service.localeValue locale) c w = (r.map catalogOf,
      if r.isOk then c.noted (Service.localeValue locale) w'.clock else c, w') := by
  have hfrom := (loadFrom_of_isRemote hremote hparse w).trans h
  have hname : (Value.text (localeName c.settings locale)).display
      = .ok (localeName c.settings locale) := rfl
  have hkey : (Value.text (localeName c.settings locale)).asKey
      = .ok (.text (localeName c.settings locale)) := rfl
  rw [load, state_bind, effectiveLocale_eq, hname, ofExcept_ok_bind]
  cases r with
  | error f => rw [bind_of_error _ hfrom]; rfl
  | ok document =>
    rw [bind_of_ok _ hfrom, hkey, noted, effectiveLocale_eq]
    rfl

/-- How a load gets a catalog from the network when the folder holds the last
fetches, and what it fetches: it reads the one that is kept, or a content comes
and is kept, or none comes. -/
inductive Gets (folder : List String) (c : Catalogs) (u : String) (w : World) (past : List Fetch) :
    List Fetch → Except Fault Value → World → Prop
  | kept {f : Fetch} (h : IsKept c w u) (hlast : lastFetch u past = some f) :
      Gets folder c u w past [] (f.content.inFile (keptPath w.folders u))
        (w.logged [⟨.debug, .catalogs, "Using cached message catalog for " ++ u⟩])
  | fetched {whole : Content} {chunks : List ByteArray} (h : ¬ IsKept c w u)
      (hreply : w.reply u = .content whole chunks) :
      Gets folder c u w past [⟨u, whole, w.clock⟩] whole.asDocument (keeping w folder u whole)
  | failed {m : String} (h : ¬ IsKept c w u)
      (hreply : w.reply u = .unreachable m ∨ w.reply u = .refused m) :
      Gets folder c u w past [] (.error (.fetchFailed u m)) (w.called (request u))

theorem exists_gets {p : Uri} {locale : Option String} (h : Holds uris folder w.files past)
    (hcache : IsCacheFolder w.folders.cache folder) (hremote : IsRemote c.settings.location)
    (hparse : Uri.parse u = .ok p) (hlocale : uriOf c.settings locale = u) (hu : u ∈ uris) :
    ∃ new r w', Gets folder c u w past new r w'
      ∧ load (Service.localeValue locale) c w = (r.map catalogOf,
        if r.isOk then c.noted (Service.localeValue locale) w.clock else c, w') := by
  subst hlocale
  by_cases hkept : IsKept c w (uriOf c.settings locale)
  · obtain ⟨f, hlast, -⟩ := (isKept_iff h hcache hu).1 hkept
    exact ⟨_, _, _, .kept hkept hlast,
      load_of_loadRemote hremote hparse (loadRemote_of_isKept h hcache hu hkept hlast)⟩
  · have hfail : ∀ m, w.reply (uriOf c.settings locale) = .unreachable m
        ∨ w.reply (uriOf c.settings locale) = .refused m → _ := fun m hm =>
      load_of_loadRemote hremote hparse (loadRemote_of_failure h hcache hu hkept hm)
    cases hreply : w.reply (uriOf c.settings locale) with
    | unreachable m => exact ⟨_, _, _, .failed hkept (.inl hreply), hfail m (.inl hreply)⟩
    | refused m => exact ⟨_, _, _, .failed hkept (.inr hreply), hfail m (.inr hreply)⟩
    | content whole chunks =>
      exact ⟨_, _, _, .fetched hkept hreply,
        load_of_loadRemote hremote hparse (loadRemote_of_content h hcache hu hkept hreply)⟩

/-- The folder holds the last fetches again. -/
theorem Gets.holds {new : List Fetch} {r : Except Fault Value}
    (hgets : Gets folder c u w past new r w') (h : Holds uris folder w.files past)
    (hdigest : Set.InjOn (fun u : String => Sha256.hexDigest u.toUTF8.toList) uris)
    (hu : u ∈ uris) :
    Holds uris folder w'.files (new ++ past) := by
  cases hgets with
  | kept _ _ => exact h
  | fetched _ _ => exact h.putFile hdigest hu _ w.clock
  | failed _ _ => exact h

/-! ## Runs -/

/-- The catalogs and the worlds that loads lead to, with the fetches on the way.
Between two loads the clock and the network may change, and nothing else does.
Only catalogs at some locations are asked for. -/
inductive Run (uris : Set String) (c₀ : Catalogs) (w₀ : World) :
    Catalogs → World → List Fetch → Prop
  | start : Run uris c₀ w₀ c₀ w₀ []
  | change {c : Catalogs} {w : World} {past : List Fetch} (h : Run uris c₀ w₀ c w past)
      (clock : Double) {web : List (String × Reply)} (hweb : Readable web) :
      Run uris c₀ w₀ c { w with clock := clock, web := web } past
  | load {c c' : Catalogs} {w w' : World} {past : List Fetch} {r : Except Fault Value}
      (h : Run uris c₀ w₀ c w past) (locale : Option String)
      (huri : uriOf c.settings locale ∈ uris)
      (hload : Catalogs.load (Service.localeValue locale) c w = (r, c', w')) :
      Run uris c₀ w₀ c' w' (fetches (uriOf c.settings locale) w w' ++ past)

/-- What is true between two loads of a run. -/
structure IsConsistent (uris : Set String) (folder : List String) (c : Catalogs) (w : World)
    (past : List Fetch) : Prop where
  remote : IsRemote c.settings.location
  cache : IsCacheFolder w.folders.cache folder
  readable : Readable w.web
  holds : Holds uris folder w.files past
  documents : ∀ f ∈ past, ∃ document, f.content.asDocument = .ok document

variable {locale : Option String}

/-- A load gives a kept catalog, or one that it fetches, or it fails because it cannot fetch one. -/
theorem load_of_isConsistent (h : IsConsistent uris folder c w past)
    (hparse : ∀ u ∈ uris, ∃ p, Uri.parse u = .ok p) (hlocale : uriOf c.settings locale = u)
    (hu : u ∈ uris) :
    (IsKept c w u ∧ ∃ f document, lastFetch u past = some f
        ∧ c.settings.maxAge.isAtLeast (w.clock.sub f.time) = true
        ∧ f.content.asDocument = .ok document
        ∧ load (Service.localeValue locale) c w
          = (.ok (catalogOf document), c.noted (Service.localeValue locale) w.clock,
            w.logged [⟨.debug, .catalogs, "Using cached message catalog for " ++ u⟩]))
      ∨ (¬ IsKept c w u ∧ ∃ whole chunks document, w.reply u = .content whole chunks
        ∧ whole.asDocument = .ok document
        ∧ load (Service.localeValue locale) c w
          = (.ok (catalogOf document), c.noted (Service.localeValue locale) w.clock,
            keeping w folder u whole))
      ∨ (¬ IsKept c w u ∧ ∃ m, (w.reply u = .unreachable m ∨ w.reply u = .refused m)
        ∧ load (Service.localeValue locale) c w
          = (.error (.fetchFailed u m), c, w.called (request u))) := by
  obtain ⟨p, hp⟩ := hparse u hu
  obtain ⟨new, r, w', hgets, hload⟩ := exists_gets h.holds h.cache h.remote hp hlocale hu
  cases hgets with
  | @kept f hkept hlast =>
    -- What is kept was fetched once, and only readable contents are fetched.
    obtain ⟨document, hdocument⟩ := h.documents f (List.mem_of_find?_eq_some hlast)
    obtain ⟨f', hlast', hage⟩ := (isKept_iff h.holds h.cache hu).1 hkept
    obtain rfl := Option.some.inj (hlast.symm.trans hlast')
    rw [(Content.inFile_eq_ok_iff _ _ _).2 hdocument] at hload
    exact .inl ⟨hkept, f, document, hlast, hage, hdocument, hload⟩
  | @fetched whole chunks hkept hreply =>
    obtain ⟨document, hdocument⟩ := h.readable.of_reply hreply
    rw [hdocument] at hload
    exact .inr (.inl ⟨hkept, whole, chunks, document, hreply, hdocument, hload⟩)
  | @failed m hkept hreply => exact .inr (.inr ⟨hkept, m, hreply, hload⟩)

theorem fetches_logged (u : String) (w : World) (rs : List LogRecord) :
    fetches u w (w.logged rs) = [] := if_pos rfl

/-- Where the network was asked, the fetches are read off its reply. -/
theorem fetches_of_called (hcalls : w'.calls = w.calls ++ [request u]) :
    fetches u w w' = (match w.reply u with
      | .content whole _ => [⟨u, whole, w.clock⟩]
      | _ => []) := by
  have hne : ¬ w'.calls = w.calls := by
    rw [hcalls]
    simp
  rw [fetches, if_neg hne]

/-- A load leads from what is true between two loads to the same. -/
theorem IsConsistent.load (h : IsConsistent uris folder c w past)
    (hparse : ∀ u ∈ uris, ∃ p, Uri.parse u = .ok p)
    (hdigest : Set.InjOn (fun u : String => Sha256.hexDigest u.toUTF8.toList) uris)
    (hu : uriOf c.settings locale ∈ uris) {r : Except Fault Value}
    (hload : Catalogs.load (Service.localeValue locale) c w = (r, c', w')) :
    IsConsistent uris folder c' w' (fetches (uriOf c.settings locale) w w' ++ past) := by
  rcases load_of_isConsistent h hparse rfl hu with ⟨-, f, document, -, -, -, hend⟩
    | ⟨-, whole, chunks, document, hreply, hdocument, hend⟩ | ⟨-, m, hreply, hend⟩
  · rw [hend] at hload
    cases hload
    rw [fetches_logged]
    exact ⟨h.remote, h.cache, h.readable, h.holds, h.documents⟩
  · rw [hend] at hload
    cases hload
    rw [fetches_of_called rfl, hreply]
    refine ⟨h.remote, h.cache, h.readable, h.holds.putFile hdigest hu whole w.clock, ?_⟩
    intro f hf
    rcases List.mem_cons.1 hf with rfl | hf
    · exact ⟨document, hdocument⟩
    · exact h.documents f hf
  · rw [hend] at hload
    cases hload
    rw [fetches_of_called rfl]
    rcases hreply with hreply | hreply <;> rw [hreply] <;>
      exact ⟨h.remote, h.cache, h.readable, h.holds, h.documents⟩

/-- A configuration with catalogs on the network, none of which is kept yet. -/
structure IsUnused (uris : Set String) (folder : List String) (c : Catalogs) (w : World) : Prop where
  remote : IsRemote c.settings.location
  cache : IsCacheFolder w.folders.cache folder
  readable : Readable w.web
  clear : w.files.IsClear folder
  free : ∀ name, w.files.entryAt (folder ++ [name]) = none

variable {c₀ : Catalogs} {w₀ : World}

theorem Run.isConsistent (hrun : Run uris c₀ w₀ c w past) (h : IsUnused uris folder c₀ w₀)
    (hparse : ∀ u ∈ uris, ∃ p, Uri.parse u = .ok p)
    (hdigest : Set.InjOn (fun u : String => Sha256.hexDigest u.toUTF8.toList) uris) :
    IsConsistent uris folder c w past := by
  induction hrun with
  | start =>
    refine ⟨h.remote, h.cache, h.readable, ⟨h.clear, by simp, ?_⟩, by simp⟩
    intro u _
    rw [h.free]
    rfl
  | change _ clock hweb ih => exact ⟨ih.remote, ih.cache, hweb, ih.holds, ih.documents⟩
  | load _ locale hu hload ih => exact ih.load hparse hdigest hu hload

theorem isKept_of_lookup {content : Content} {time : Double}
    (hfile : w.files.lookup (keptPath w.folders u) = .ok (.file content time)) :
    IsKept c w u ↔ c.settings.maxAge.isAtLeast (w.clock.sub time) = true := by
  simp [IsKept, hfile]

/-- In a run, a load asks the network once, or not at all if the catalog is kept
and not too old. If it asks nothing, it gives the catalog that was last fetched
from the same location, and that is not too old. If a content comes, it gives
that one and keeps it with the time of the clock. If none comes, it fails, and
neither a kept catalog nor the age of one that was loaded changes. Not to be too
old is to be at most as old as the configuration allows, which is not to be older
unless one of the two is `nan`. -/
theorem load_of_run (h : IsUnused uris folder c₀ w₀)
    (hparse : ∀ u ∈ uris, ∃ p, Uri.parse u = .ok p)
    (hdigest : Set.InjOn (fun u : String => Sha256.hexDigest u.toUTF8.toList) uris)
    (hrun : Run uris c₀ w₀ c w past) (hlocale : uriOf c.settings locale = u) (hu : u ∈ uris) :
    ∃ r c' w', load (Service.localeValue locale) c w = (r, c', w')
      ∧ ((IsKept c w u ∧ w'.calls = w.calls ∧ ∃ f document, lastFetch u past = some f
          ∧ c.settings.maxAge.isAtLeast (w.clock.sub f.time) = true
          ∧ f.content.asDocument = .ok document ∧ r = .ok (catalogOf document))
        ∨ (¬ IsKept c w u ∧ w'.calls = w.calls ++ [request u]
          ∧ ((∃ whole chunks document, w.reply u = .content whole chunks
              ∧ whole.asDocument = .ok document ∧ r = .ok (catalogOf document)
              ∧ w'.files.lookup (keptPath w'.folders u) = .ok (.file whole w.clock))
            ∨ (∃ m, (w.reply u = .unreachable m ∨ w.reply u = .refused m)
              ∧ r = .error (.fetchFailed u m) ∧ w'.files = w.files ∧ c' = c))))
      ∧ (c.settings.maxAge ≠ .real .nan →
        ∀ content time, w.files.lookup (keptPath w.folders u) = .ok (.file content time) →
          w.clock.sub time ≠ .nan →
          (IsKept c w u ↔ ¬ c.settings.maxAge.isBelow (w.clock.sub time) = true)) := by
  have hconsistent := hrun.isConsistent h hparse hdigest
  have hage : c.settings.maxAge ≠ .real .nan →
      ∀ content time, w.files.lookup (keptPath w.folders u) = .ok (.file content time) →
        w.clock.sub time ≠ .nan →
        (IsKept c w u ↔ ¬ c.settings.maxAge.isBelow (w.clock.sub time) = true) := by
    intro hmax content time hfile htime
    rw [isKept_of_lookup hfile, Quantity.isAtLeast_eq_not_isBelow hmax htime, Bool.not_eq_true,
      Bool.not_eq_true']
  rcases load_of_isConsistent hconsistent hparse hlocale hu
    with ⟨hkept, f, document, hlast, hold, hdocument, hload⟩
    | ⟨hkept, whole, chunks, document, hreply, hdocument, hload⟩ | ⟨hkept, m, hreply, hload⟩
  · exact ⟨_, _, _, hload, .inl ⟨hkept, rfl, f, document, hlast, hold, hdocument, rfl⟩, hage⟩
  · refine ⟨_, _, _, hload, .inr ⟨hkept, rfl, .inl ⟨whole, chunks, document, hreply, hdocument, rfl,
      ?_⟩⟩, hage⟩
    have hnext := hconsistent.holds.putFile hdigest hu whole w.clock
    have hlast : lastFetch u (⟨u, whole, w.clock⟩ :: past) = some ⟨u, whole, w.clock⟩ := by
      simp [lastFetch]
    exact lookupFrom_of_fetch (w := keeping w folder u whole) hnext hconsistent.cache hu hlast "/"
  · exact ⟨_, _, _, hload, .inr ⟨hkept, rfl, .inr ⟨m, hreply, rfl, rfl, rfl⟩⟩, hage⟩

/-- A catalog that is fetched from the network, whatever its greatest age is. -/
def afar (maxAge : Quantity) : Catalogs := ⟨"/c", ⟨"https://e.com/m", "en", maxAge, .warning⟩, []⟩

def afarUri : String := "https://e.com/m/en.yaml"

def afarCatalog : Value := .dict [(.text "a", .null)]

/-- A world with that catalog on the network, and no files. -/
def afarWorld : World where
  folders := ⟨"/", "/", "/cache"⟩
  files := .empty
  web := [(afarUri, .content (.document afarCatalog) [])]
  clock := .zero
  calls := []
  log := []

theorem uriOf_afar (maxAge : Quantity) : uriOf (afar maxAge).settings none = afarUri := by
  simp [uriOf, localeName, afar, Settings.catalogUri, afarUri]

theorem parse_afarUri : ∀ u ∈ ({afarUri} : Set String), ∃ p, Uri.parse u = .ok p := by
  intro u hu
  obtain rfl : u = afarUri := hu
  exact ⟨⟨"https", "e.com", "/m/en.yaml"⟩, rfl⟩

theorem reply_afarUri : afarWorld.reply afarUri = .content (.document afarCatalog) [] := by
  simp [afarWorld, World.reply]

theorem isRemote_afar (maxAge : Quantity) : IsRemote (afar maxAge).settings.location := by
  have hscheme : Uri.schemeIn "https://e.com/m" = "https" := by
    simp only [Uri.schemeIn, String.reduceToList]
    rfl
  exact .inr hscheme

theorem isCacheFolder_cache : IsCacheFolder "/cache" ["cache"] := by
  have hname : IsName "cache" :=
    ⟨by decide, by decide, by decide, by decide, by decide, by decide⟩
  exact ⟨rfl, by simp, by simpa using hname, by decide⟩

theorem isUnused_afar (maxAge : Quantity) :
    IsUnused {afarUri} ["cache"] (afar maxAge) afarWorld := by
  have hentry : ∀ place, place ≠ [] → afarWorld.files.entryAt place = none := by
    intro place hplace
    simp [afarWorld, Files.entryAt, Files.empty, hplace]
  refine ⟨isRemote_afar maxAge, isCacheFolder_cache, ?_, ?_, ?_⟩
  · intro url whole chunks hmem
    simp only [afarWorld, List.mem_singleton, Prod.mk.injEq, Reply.content.injEq] at hmem
    exact ⟨afarCatalog, by rw [hmem.2.1]; rfl⟩
  · intro p _ e he
    by_cases hp : p = []
    · subst hp
      exact ⟨.zero, (Option.some.inj he).symm⟩
    · rw [hentry p hp] at he
      cases he
  · intro name
    exact hentry _ (by simp)

/-- The first load fetches the catalog. -/
theorem load_afar (maxAge : Quantity) : ∃ c w,
    Run {afarUri} (afar maxAge) afarWorld c w [⟨afarUri, .document afarCatalog, .zero⟩]
      ∧ c.settings = (afar maxAge).settings
      ∧ w.reply afarUri = .content (.document afarCatalog) [] := by
  have hstart : IsConsistent {afarUri} ["cache"] (afar maxAge) afarWorld [] :=
    Run.start.isConsistent (isUnused_afar maxAge) parse_afarUri (Set.injOn_singleton _ _)
  rcases load_of_isConsistent hstart parse_afarUri (uriOf_afar maxAge) rfl
    with ⟨-, f, document, hlast, -⟩ | ⟨-, whole, chunks, document, hcontent, hdocument, hload⟩
    | ⟨-, m, hfailure, -⟩
  · cases hlast
  · rw [reply_afarUri] at hcontent
    cases hcontent
    cases hdocument
    have huri : uriOf (afar maxAge).settings none ∈ ({afarUri} : Set String) := uriOf_afar maxAge
    have hrun := Run.start.load none huri hload
    rw [uriOf_afar, fetches_of_called rfl, reply_afarUri] at hrun
    exact ⟨_, _, hrun, rfl, reply_afarUri⟩
  · rw [reply_afarUri] at hfailure
    simp at hfailure

/-- A catalog that was just fetched is fetched again although its age is not
greater than the greatest one. It is not at most that either, because that is `nan`. -/
theorem load_again_of_nan : ∃ c w past,
    IsUnused {afarUri} ["cache"] (afar (.real .nan)) afarWorld
      ∧ Run {afarUri} (afar (.real .nan)) afarWorld c w past ∧ uriOf c.settings none = afarUri
      ∧ ∃ content time, w.files.lookup (keptPath w.folders afarUri) = .ok (.file content time)
        ∧ c.settings.maxAge.isBelow (w.clock.sub time) = false
        ∧ ∃ r c' w', load (Service.localeValue none) c w = (r, c', w')
          ∧ w'.calls = w.calls ++ [request afarUri] := by
  obtain ⟨c, w, hrun, hsettings, hreply⟩ := load_afar (.real .nan)
  have hsound := hrun.isConsistent (isUnused_afar _) parse_afarUri (Set.injOn_singleton _ _)
  have huri : uriOf c.settings none = afarUri := by rw [hsettings, uriOf_afar]
  have hage : ∀ x, c.settings.maxAge.isAtLeast x = false := by
    intro x
    rw [hsettings]
    cases x <;> rfl
  have hlast : lastFetch afarUri [⟨afarUri, .document afarCatalog, .zero⟩]
      = some ⟨afarUri, .document afarCatalog, .zero⟩ := rfl
  refine ⟨c, w, _, isUnused_afar _, hrun, huri, _, _,
    lookupFrom_of_fetch hsound.holds hsound.cache rfl hlast "/", ?_, ?_⟩
  · rw [hsettings]
    rfl
  · rcases load_of_isConsistent hsound parse_afarUri huri rfl
      with ⟨⟨content, time, -, hkept⟩, -⟩ | ⟨-, whole, chunks, document, -, -, hload⟩
      | ⟨-, m, hfailure, -⟩
    · rw [hage] at hkept
      cases hkept
    · exact ⟨_, _, _, hload, rfl⟩
    · rw [hreply] at hfailure
      simp at hfailure

/-- Half an hour in seconds: 1800. -/
def halfHour : Double := .finite false 0x409C200000000000 (by decide)

/-- After half an hour, and with no network any more, the catalog is still there. -/
theorem load_of_run_afar :
    IsUnused {afarUri} ["cache"] (afar (.whole 1800)) afarWorld
      ∧ (∀ u ∈ ({afarUri} : Set String), ∃ p, Uri.parse u = .ok p)
      ∧ Set.InjOn (fun u : String => Sha256.hexDigest u.toUTF8.toList) {afarUri}
      ∧ ∃ c w past, Run {afarUri} (afar (.whole 1800)) afarWorld c w past
        ∧ w.clock = halfHour ∧ w.web = [] ∧ uriOf c.settings none = afarUri
        ∧ ∃ c' w', load (Service.localeValue none) c w = (.ok afarCatalog, c', w')
          ∧ w'.calls = w.calls := by
  have hunused := isUnused_afar (.whole 1800)
  have hdigest : Set.InjOn (fun u : String => Sha256.hexDigest u.toUTF8.toList) {afarUri} :=
    Set.injOn_singleton _ _
  obtain ⟨c, w, hfirst, hsettings, -⟩ := load_afar (.whole 1800)
  have hnone : Readable [] := by
    intro url whole chunks hmem
    simp at hmem
  have hrun := hfirst.change halfHour hnone
  have huri : uriOf c.settings none = afarUri := by rw [hsettings, uriOf_afar]
  have hsound := hrun.isConsistent hunused parse_afarUri hdigest
  have hlast : lastFetch afarUri [⟨afarUri, .document afarCatalog, .zero⟩]
      = some ⟨afarUri, .document afarCatalog, .zero⟩ := rfl
  have hkept : IsKept c { w with clock := halfHour, web := [] } afarUri := by
    have hbound : Quantity.isAtLeast (.whole 1800) (halfHour.sub .zero) = true := by
      decide +kernel
    refine (isKept_iff hsound.holds hsound.cache rfl).2 ⟨_, hlast, ?_⟩
    rw [hsettings]
    exact hbound
  refine ⟨hunused, parse_afarUri, hdigest, c, _, _, hrun, rfl, rfl, huri, ?_⟩
  obtain ⟨r, c', w', hload, ⟨-, hcalls, f, document, hf, -, hdocument, rfl⟩ | ⟨hstale, -⟩, -⟩ :=
    load_of_run hunused parse_afarUri hdigest hrun huri rfl
  · rw [hlast] at hf
    cases hf
    cases hdocument
    exact ⟨c', w', hload, hcalls⟩
  · exact absurd hkept hstale

end Catalogs

end FieldCheck
