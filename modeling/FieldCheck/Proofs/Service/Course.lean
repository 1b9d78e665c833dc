/-
FieldCheck.Proofs.Service.Course — a call reloads the messages once or never.

For what comes after a call it matters what the call did to the service, to the
files, and whether it asked for a catalog. Logging and requests for records leave
all that as it is (`SameBackground`). An action that `Idles` does no more than that
and notes at most the time of a look.

A batch makes many looks, and each of them could start a reload. Behind the first
one the service is settled, and a settled service idles (`batchList_idles`). So
every call idles, or it idles up to one reload and behind it (`Call.course`).
-/
import FieldCheck.Proofs.Catalogs.Cache
import FieldCheck.Proofs.Service.Looking

namespace FieldCheck

open FieldCheck.Action

/-! ## The background of a call -/

/-- The worlds differ at most in the log and in requests for records. -/
structure SameBackground (w w' : World) : Prop where
  folders : w'.folders = w.folders
  files : w'.files = w.files
  web : w'.web = w.web
  clock : w'.clock = w.clock
  asked : ∀ u, w'.calls.count (Catalogs.request u) = w.calls.count (Catalogs.request u)

namespace SameBackground

variable {w w' w'' : World}

theorem refl (w : World) : SameBackground w w := ⟨rfl, rfl, rfl, rfl, fun _ => rfl⟩

theorem trans (h : SameBackground w w') (h' : SameBackground w' w'') : SameBackground w w'' :=
  ⟨h'.folders.trans h.folders, h'.files.trans h.files, h'.web.trans h.web, h'.clock.trans h.clock,
    fun u => (h'.asked u).trans (h.asked u)⟩

theorem logged (w : World) (rs : List LogRecord) : SameBackground w (w.logged rs) :=
  ⟨rfl, rfl, rfl, rfl, fun _ => rfl⟩

theorem of_withoutLog {s s' : Service} (h : Service.withoutLog s' w' = Service.withoutLog s w) :
    SameBackground w w' := by
  obtain ⟨-, h⟩ := Prod.mk.injEq .. ▸ h
  injection h with hfolders hfiles hweb hclock hcalls
  exact ⟨hfolders, hfiles, hweb, hclock, fun u => by rw [hcalls]⟩

end SameBackground

/-- A request for records is none for a catalog. -/
theorem Records.callFor_ne_request (uri u : String) (reply : Reply) :
    Records.callFor uri reply ≠ Catalogs.request u := by
  cases reply <;> simp [Records.callFor, Catalogs.request]

theorem SameBackground.of_loadAt {σ : Type} {location : Value} {s s' : σ} {w w' : World}
    {r : Except Fault (List Value)} (h : Records.loadAt location s w = (r, s', w')) :
    SameBackground w w' := by
  have hcalled : ∀ uri reply, SameBackground w (w.called (Records.callFor uri reply)) := by
    intro uri reply
    refine ⟨rfl, rfl, rfl, rfl, fun u => ?_⟩
    have hne := Records.callFor_ne_request uri u reply
    simp [World.called, List.count_append, hne]
  cases location with
  | text uri =>
    rw [Records.loadAt, Records.load] at h
    cases hparse : Uri.parse uri with
    | error f =>
      rw [hparse, ofExcept_error_bind] at h
      cases h
      exact .refl w
    | ok u =>
      rw [hparse, ofExcept_ok_bind, world_bind] at h
      dsimp only at h
      split at h
      · cases h
        exact .refl w
      split at h
      · cases h
        exact hcalled _ _
      · cases h
        exact .refl w
  | _ =>
    cases h
    exact .refl w

namespace Service

variable {s s' s'' : Service} {w w' w'' : World}

/-! ## Idle actions -/

/-- Nothing is done but to note the time of a look, to log and to get records. -/
structure Idles (s : Service) (w : World) (s' : Service) (w' : World) : Prop where
  service : s' = s ∨ s' = s.looked w.clock
  world : SameBackground w w'

theorem Idles.refl (s : Service) (w : World) : Idles s w s w := ⟨.inl rfl, .refl w⟩

theorem Idles.trans (h : Idles s w s' w') (h' : Idles s' w' s'' w'') : Idles s w s'' w'' := by
  refine ⟨?_, h.world.trans h'.world⟩
  have hsecond := h'.service
  rw [h.world.clock] at hsecond
  rcases h.service with rfl | rfl
  · exact hsecond
  · rcases hsecond with rfl | rfl <;> exact .inr rfl

theorem Idles.setup_eq (h : Idles s w s' w') : s'.setup = s.setup := by
  rcases h.service with rfl | rfl <;> rfl

theorem Idles.messages_eq (h : Idles s w s' w') : s'.messages = s.messages := by
  rcases h.service with rfl | rfl <;> rfl

theorem Idles.engine_eq (h : Idles s w s' w') : s'.engine = s.engine := by
  rcases h.service with rfl | rfl <;> rfl

theorem Idles.of_withoutLog (h : withoutLog s' w' = withoutLog s w) : Idles s w s' w' :=
  ⟨.inl (eq_of_withoutLog h), .of_withoutLog h⟩

/-- A look starts a reload or idles. -/
theorem look_course (s : Service) (w : World) :
    (∃ s₀ w₀, FindsStale s w s₀ w₀) ∨ Idles s w (look s w).2.1 (look s w).2.2 := by
  rcases look_cases s w with hstale | ⟨f, hlook⟩ | ⟨hlook, -⟩ | ⟨hlook, -⟩
  · exact .inl hstale
  · rw [hlook]
    exact .inr ⟨.inr rfl, .refl w⟩
  · rw [hlook]
    exact .inr (.refl s w)
  · rw [hlook]
    exact .inr ⟨.inr rfl, .refl w⟩

theorem FindsStale.idles {s₀ : Service} {w₀ : World} (h : FindsStale s w s₀ w₀) :
    Idles s w s₀ w₀ := by
  obtain ⟨age, message, -, -, -, rfl⟩ := h.stale
  exact ⟨.inr h.state_eq, .logged w _⟩

theorem BeginsWithLook.idles {α : Type} {x : Action Service α} (h : BeginsWithLook x)
    (hlook : Idles s w (look s w).2.1 (look s w).2.2) : Idles s w (x s w).2.1 (x s w).2.2 :=
  hlook.trans (.of_withoutLog (h.withoutLog_eq s w))

theorem BeginsWithLook.idles_of_settled {α : Type} {x : Action Service α} (h : BeginsWithLook x)
    (hset : s.Settled w.clock) : Idles s w (x s w).2.1 (x s w).2.2 := by
  rcases look_course s w with ⟨s₀, w₀, hstale⟩ | hlook
  · exact absurd hstale (not_findsStale_of_settled hset s₀ w₀)
  · exact h.idles hlook

/-- The records of a batch behind the first one. -/
theorem batchList_idles (descriptors fields : Value) (records : List Value) (hs : IsConfigured s)
    (hset : s.Settled w.clock) :
    Idles s w (batchList records descriptors fields s w).2.1
      (batchList records descriptors fields s w).2.2 := by
  induction records generalizing s w with
  | nil => exact .refl s w
  | cons record rest ih =>
    have hfirst := beginsWithLook_batchOne descriptors fields record
    have hidle := hfirst.idles_of_settled hset
    rw [batchList, forEach]
    rcases hone : batchOne descriptors fields record s w with ⟨f | b, s₁, w₁⟩
    · rw [hone] at hidle
      rw [bind_of_error _ hone]
      exact hidle
    · rw [hone] at hidle
      rw [bind_of_ok _ hone]
      have hset₁ : s₁.Settled w₁.clock := by
        rw [hidle.world.clock]
        exact hfirst.settled hs hone
      have hothers := ih (hs.of_setup hidle.setup_eq) hset₁
      rw [batchList] at hothers
      rcases hrest : forEach (batchOne descriptors fields) rest s₁ w₁ with ⟨f | bs, s₂, w₂⟩
      · rw [hrest] at hothers
        rw [bind_of_error _ hrest]
        exact hidle.trans hothers
      · rw [hrest] at hothers
        rw [bind_of_ok _ hrest]
        exact hidle.trans hothers

/-! ## The course of a call -/

/-- Something idles behind a reload, and leaves the service as the reload left it. -/
structure Follows (s₀ : Service) (w₀ : World) (s' : Service) (w' : World) : Prop where
  service : s' = (reload s₀ w₀).2.1
  world : SameBackground (reload s₀ w₀).2.2 w'

theorem Follows.messages_eq {s₀ : Service} {w₀ : World} (h : Follows s₀ w₀ s' w') :
    s'.messages = (prepare s₀ w₀).2.1.messages := by
  rw [h.service, state_reload]

theorem BeginsWithLook.follows {α : Type} {x : Action Service α} (h : BeginsWithLook x)
    {s₀ : Service} {w₀ : World} (hstale : FindsStale s w s₀ w₀) :
    Follows s₀ w₀ (x s w).2.1 (x s w).2.2 := by
  have hsame := h.withoutLog_eq s w
  rw [look_of_findsStale hstale] at hsame
  exact ⟨eq_of_withoutLog hsame, .of_withoutLog hsame⟩

/-- Behind a reload that was successful there is no later time to note. -/
theorem looked_of_reload {s₀ s₁ : Service} {w₀ w₁ : World} (hown : s₀.injected = none)
    (h : reload s₀ w₀ = (.ok (), s₁, w₁)) : s₁.looked w₀.clock = s₁ := by
  obtain ⟨v, -, ⟨-, f, hr⟩ | ⟨-, f, hr⟩ | ⟨-, texts, hr⟩⟩ := reload_cases hown w₀
  · rw [hr] at h
    cases h
  · rw [hr] at h
    cases h
  · rw [hr] at h
    cases h
    rfl

/-- What idles behind something that ends well after a reload follows that reload too. -/
theorem Follows.idles {s₀ : Service} {w₀ w₁ : World} (h : Follows s₀ w₀ s' w')
    (hown : s₀.injected = none) (hclock : w'.clock = w₀.clock)
    (hok : reload s₀ w₀ = (.ok (), s', w₁)) (hidle : Idles s' w' s'' w'') :
    Follows s₀ w₀ s'' w'' := by
  refine ⟨?_, h.world.trans hidle.world⟩
  rcases hidle.service with rfl | rfl
  · exact h.service
  · rw [hclock, looked_of_reload hown hok]
    exact h.service

/-- The records of a batch behind one that has a result. -/
theorem batchList_idles_behind (hs : IsConfigured s) {descriptors fields record : Value}
    {b : BatchResult} (hone : batchOne descriptors fields record s w = (.ok b, s', w'))
    (rest : List Value) :
    Idles s' w' (batchList rest descriptors fields s' w').2.1
      (batchList rest descriptors fields s' w').2.2 := by
  have hsame := keeps_batchOne ignoresCalls_setup descriptors fields record s w
  have hclock := keeps_batchOne ignoresCalls_clock descriptors fields record s w
  rw [hone] at hsame hclock
  have hclock : w'.clock = w.clock := hclock
  refine batchList_idles descriptors fields rest (hs.of_setup hsame) ?_
  rw [hclock]
  exact (beginsWithLook_batchOne descriptors fields record).settled hs hone

/-- A part of a batch that goes on to a reload for its first record idles behind it. -/
theorem batchList_follows (hs : IsConfigured s) (descriptors fields record : Value)
    (rest : List Value) {s₀ : Service} {w₀ : World} (hstale : FindsStale s w s₀ w₀) :
    Follows s₀ w₀ (batchList (record :: rest) descriptors fields s w).2.1
      (batchList (record :: rest) descriptors fields s w).2.2 := by
  have hfirst := beginsWithLook_batchOne descriptors fields record
  have hfollows := hfirst.follows hstale
  have hclock := keeps_batchOne ignoresCalls_clock descriptors fields record s w
  rw [batchList, forEach]
  rcases hone : batchOne descriptors fields record s w with ⟨f | b, s₁, w₁⟩
  · rw [hone] at hfollows
    rw [bind_of_error _ hone]
    exact hfollows
  · rw [hone] at hfollows hclock
    have hclock : w₁.clock = w.clock := hclock
    have hothers := batchList_idles_behind hs hone rest
    obtain ⟨w₂, hok⟩ := hfirst.look_of_ok hone
    rw [look_of_findsStale hstale] at hok
    obtain ⟨rfl, hclock₀⟩ := hstale.start
    rw [bind_of_ok _ hone, end_bind_pure _ fun others => b :: others]
    exact hfollows.idles hstale.injected (hclock.trans hclock₀.symm) hok hothers

/-- A part of a batch idles, or it goes on to a reload for its first record and
idles behind it. -/
theorem batchList_course (hs : IsConfigured s) (descriptors fields : Value)
    (records : List Value) (w : World) :
    Idles s w (batchList records descriptors fields s w).2.1
        (batchList records descriptors fields s w).2.2
      ∨ ∃ record rest s₀ w₀, records = record :: rest ∧ FindsStale s w s₀ w₀
        ∧ Follows s₀ w₀ (batchList records descriptors fields s w).2.1
          (batchList records descriptors fields s w).2.2 := by
  cases records with
  | nil => exact .inl (.refl s w)
  | cons record rest =>
    rcases look_course s w with ⟨s₀, w₀, hstale⟩ | hlook
    · exact .inr ⟨record, rest, s₀, w₀, rfl, hstale, batchList_follows hs _ _ _ _ hstale⟩
    · have hidle := (beginsWithLook_batchOne descriptors fields record).idles hlook
      rw [batchList, forEach]
      rcases hone : batchOne descriptors fields record s w with ⟨f | b, s₁, w₁⟩
      · rw [hone] at hidle
        rw [bind_of_error _ hone]
        exact .inl hidle
      · rw [hone] at hidle
        rw [bind_of_ok _ hone, end_bind_pure _ fun others => b :: others]
        exact .inl (hidle.trans (batchList_idles_behind hs hone rest))

/-- An action that begins with a look idles, or it goes on to the reload that the look
starts. In a call that is this action, the reload is one of the call. -/
theorem BeginsWithLook.course {α : Type} {x : Action Service α} (hx : BeginsWithLook x)
    {call : Call} {w : World}
    (hreloads : ∀ s₀ w₀, FindsStale s w s₀ w₀ → call.Reloads s w s₀ w₀) :
    Idles s w (x s w).2.1 (x s w).2.2
      ∨ ∃ s₀ w₀, call.Reloads s w s₀ w₀ ∧ Idles s w s₀ w₀
        ∧ Follows s₀ w₀ (x s w).2.1 (x s w).2.2 := by
  rcases look_course s w with ⟨s₀, w₀, hstale⟩ | hlook
  · exact .inr ⟨s₀, w₀, hreloads s₀ w₀ hstale, hstale.idles, hx.follows hstale⟩
  · exact .inl (hx.idles hlook)

/-- A call idles, or it idles up to one reload and behind it. -/
theorem Call.course (hs : IsConfigured s) (call : Call) (w : World) :
    Idles s w (call.run s w).2.1 (call.run s w).2.2
      ∨ ∃ s₀ w₀, call.Reloads s w s₀ w₀ ∧ Idles s w s₀ w₀
        ∧ Follows s₀ w₀ (call.run s w).2.1 (call.run s w).2.2 := by
  cases call with
  | check ds r =>
    rw [run, end_bind_pure _ fun _ => ()]
    exact (beginsWithLook_check ds r).course fun _ _ => .check
  | require ds r => exact (beginsWithLook_require ds r).course fun _ _ => .require
  | discover ds =>
    rw [run, end_bind_pure _ fun _ => ()]
    exact (beginsWithLook_discover ds).course fun _ _ => .discover
  | report o =>
    rw [run, end_bind_pure _ fun _ => ()]
    exact .inl (.of_withoutLog (keeps_withoutLog_report o s w))
  | message key =>
    rw [run, end_bind_pure _ fun _ => ()]
    exact .inl (.of_withoutLog (keeps_withoutLog_message key s w))
  | batch records ds fs =>
    rw [run, end_bind_pure _ fun _ => (), Service.batch]
    cases hrecords : records.elements with
    | error f => exact .inl (.refl s w)
    | ok rs =>
      rw [ofExcept_ok_bind]
      rcases batchList_course hs ds fs rs w with h | ⟨record, rest, s₀, w₀, rfl, hstale, h⟩
      · exact .inl h
      · have hrs : records.elements = .ok ([] ++ record :: rest) := hrecords
        exact .inr ⟨s₀, w₀, .batch hrs rfl hstale, hstale.idles, h⟩
  | batchFile location ds fs =>
    rw [run, end_bind_pure _ fun _ => (), Service.batchFile]
    rcases hload : Records.loadAt location s w with ⟨f | rs, s₁, w₁⟩
    · obtain ⟨rfl, -⟩ := Records.eq_of_loadAt hload
      rw [bind_of_error _ hload]
      exact .inl ⟨.inl rfl, .of_loadAt hload⟩
    · obtain ⟨rfl, -⟩ := Records.eq_of_loadAt hload
      have hgot : Idles s₁ w s₁ w₁ := ⟨.inl rfl, .of_loadAt hload⟩
      rw [bind_of_ok _ hload]
      rcases batchList_course hs ds fs rs w₁ with h | ⟨record, rest, s₀, w₀, rfl, hstale, h⟩
      · exact .inl (hgot.trans h)
      · have hrs : Records.loadAt location s₁ w = (.ok ([] ++ record :: rest), s₁, w₁) := hload
        exact .inr ⟨s₀, w₀, .batchFile hrs rfl hstale, hgot.trans hstale.idles, h⟩
  | reload => exact .inr ⟨s, w, .reload s w, .refl s w, rfl, .refl _⟩

/-- A call that goes on to a reload idles behind it. -/
theorem Call.Reloads.follows {call : Call} {s₀ : Service} {w₀ : World}
    (h : call.Reloads s w s₀ w₀) (hs : IsConfigured s) :
    Follows s₀ w₀ (call.run s w).2.1 (call.run s w).2.2 := by
  cases h with
  | reload => exact ⟨rfl, .refl _⟩
  | check h =>
    rw [run, end_bind_pure _ fun _ => ()]
    exact (beginsWithLook_check _ _).follows h
  | require h => exact (beginsWithLook_require _ _).follows h
  | discover h =>
    rw [run, end_bind_pure _ fun _ => ()]
    exact (beginsWithLook_discover _).follows h
  | batch hrecords hbefore h =>
    obtain ⟨rfl, rfl, rfl⟩ := eq_nil_of_findsStale hs hbefore h
    rw [run, end_bind_pure _ fun _ => (), Service.batch, hrecords]
    exact batchList_follows hs _ _ _ _ h
  | batchFile hrecords hbefore h =>
    obtain ⟨rfl, -⟩ := Records.eq_of_loadAt hrecords
    obtain ⟨rfl, rfl, rfl⟩ := eq_nil_of_findsStale hs hbefore h
    rw [run, end_bind_pure _ fun _ => (), Service.batchFile, bind_of_ok _ hrecords]
    exact batchList_follows hs _ _ _ _ h

/-- A reload that was not asked for is started by a look that finds the messages too old. -/
theorem Call.Reloads.exists_findsStale {call : Call} {s₀ : Service} {w₀ : World}
    (h : call.Reloads s w s₀ w₀) (hs : IsConfigured s) (hcall : call ≠ .reload) :
    ∃ w₁, SameBackground w w₁ ∧ FindsStale s w₁ s₀ w₀ := by
  cases h with
  | reload => exact absurd rfl hcall
  | check h => exact ⟨w, .refl w, h⟩
  | require h => exact ⟨w, .refl w, h⟩
  | discover h => exact ⟨w, .refl w, h⟩
  | batch hrecords hbefore h =>
    obtain ⟨-, rfl, rfl⟩ := eq_nil_of_findsStale hs hbefore h
    exact ⟨_, .refl _, h⟩
  | batchFile hrecords hbefore h =>
    obtain ⟨rfl, -⟩ := Records.eq_of_loadAt hrecords
    obtain ⟨-, rfl, rfl⟩ := eq_nil_of_findsStale hs hbefore h
    exact ⟨_, .of_loadAt hrecords, h⟩

end Service

end FieldCheck
