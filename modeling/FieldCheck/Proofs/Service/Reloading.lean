/-
FieldCheck.Proofs.Service.Reloading — what a reload leaves behind.

A reload of a service without a source of its own has three ends. Its catalog
is `Unavailable`: no document comes from its location, and the service stays
as it is. A document comes but holds no messages: the messages stay, yet the
time of the load is already noted. Or the messages are replaced.

A look at the age of the messages either `FindsStale` messages, and then it
ends as the reload that it starts, or it does no more than note the time of
the look. Behind a look that ends well the service is `Settled`: at that time
no further look starts a reload.
-/
import FieldCheck.Proofs.Service.Loading
import FieldCheck.Service

namespace FieldCheck

open FieldCheck.Action

theorem Messages.ofCatalog_eq_ok {document : Value} {m : Messages}
    (h : Messages.ofCatalog document = .ok m) : ∃ texts, m = .catalog texts := by
  cases document with
  | dict entries =>
    rw [ofCatalog] at h
    cases htexts : (sectionEntries entries >>= shownEntries) with
    | error f => simp [htexts, Except.map] at h
    | ok texts =>
      rw [htexts] at h
      cases h
      exact ⟨texts, rfl⟩
  | _ => simp [ofCatalog] at h

namespace Service

variable {s : Service}

/-! ## Loading messages -/

/-- No document for the messages of a service comes from the place where they are. -/
def Unavailable (s : Service) (w : World) : Prop :=
  ∃ f, (Catalogs.load s.locale s.catalogs w).1 = .error f

/-- The service when its catalog was loaded at a time, with the messages that it had. -/
def noted (s : Service) (now : Double) : Service :=
  { s with catalogs := s.catalogs.noted s.locale now }

theorem onCatalogs_apply {α : Type} {x : Action Catalogs α} {r : Except Fault α} {c : Catalogs}
    {w w' : World} (h : x s.catalogs w = (r, c, w')) :
    onCatalogs x s w = (r, { s with catalogs := c }, w') := by
  simp [onCatalogs, onPart, h]

/-- Loading messages fails without a trace, fails when the time is noted, or
gives those of a catalog. -/
theorem loadMessages_cases (s : Service) (w : World) :
    ∃ w', w'.clock = w.clock ∧
      ((Unavailable s w ∧ ∃ f, loadMessages s w = (.error f, s, w'))
        ∨ (¬ Unavailable s w ∧ ∃ f, loadMessages s w = (.error f, s.noted w.clock, w'))
        ∨ (¬ Unavailable s w
          ∧ ∃ texts, loadMessages s w = (.ok (.catalog texts), s.noted w.clock, w'))) := by
  obtain ⟨w', hclock, ⟨f, hload⟩ | ⟨document, hload⟩⟩ := Catalogs.load_cases s.locale s.catalogs w
  · refine ⟨w', hclock, .inl ⟨⟨f, by rw [hload]⟩, f, ?_⟩⟩
    rw [loadMessages, state_bind, bind_of_error _ (onCatalogs_apply hload)]
  · have havailable : ¬ Unavailable s w := by
      rintro ⟨f, hf⟩
      rw [hload] at hf
      cases hf
    rw [loadMessages, state_bind, bind_of_ok _ (onCatalogs_apply hload)]
    cases hm : Messages.ofCatalog document with
    | error f => exact ⟨w', hclock, .inr (.inl ⟨havailable, f, rfl⟩)⟩
    | ok m =>
      obtain ⟨texts, rfl⟩ := Messages.ofCatalog_eq_ok hm
      rw [ofExcept_ok_bind, log_bind]
      exact ⟨w'.logged _, hclock, .inr (.inr ⟨havailable, texts, rfl⟩)⟩

/-! ## Reloads -/

/-- The service with new messages, loaded at a time. -/
def renewed (s : Service) (m : Messages) (now : Double) : Service :=
  { s.noted now with messages := m, engine := ⟨m⟩, lastLook := now }

/-- Without a source of its own, a service gets its messages by loading them. -/
theorem prepare_eq (hs : s.injected = none) (w : World) :
    prepare s w = (loadMessages >>= useMessages) s w := by
  rw [prepare, state_bind, hs]

/-- Getting messages fails without a trace, fails when the time is noted, or renews the messages. -/
theorem prepare_cases (hs : s.injected = none) (w : World) :
    ∃ w', w'.clock = w.clock ∧
      ((Unavailable s w ∧ ∃ f, prepare s w = (.error f, s, w'))
        ∨ (¬ Unavailable s w ∧ ∃ f, prepare s w = (.error f, s.noted w.clock, w'))
        ∨ (¬ Unavailable s w
          ∧ ∃ texts, prepare s w = (.ok (), s.renewed (.catalog texts) w.clock, w'))) := by
  rw [prepare_eq hs]
  obtain ⟨w', hclock, ⟨hun, f, hload⟩ | ⟨hav, f, hload⟩ | ⟨hav, texts, hload⟩⟩ :=
    loadMessages_cases s w
  · exact ⟨w', hclock, .inl ⟨hun, f, bind_of_error _ hload⟩⟩
  · exact ⟨w', hclock, .inr (.inl ⟨hav, f, bind_of_error _ hload⟩)⟩
  · refine ⟨w', hclock, .inr (.inr ⟨hav, texts, ?_⟩)⟩
    rw [bind_of_ok _ hload, ← hclock]
    rfl

/-- A reload ends as getting messages does. -/
theorem reload_cases (hs : s.injected = none) (w : World) :
    ∃ w', w'.clock = w.clock ∧
      ((Unavailable s w ∧ ∃ f, reload s w = (.error f, s, w'))
        ∨ (¬ Unavailable s w ∧ ∃ f, reload s w = (.error f, s.noted w.clock, w'))
        ∨ (¬ Unavailable s w
          ∧ ∃ texts, reload s w = (.ok (), s.renewed (.catalog texts) w.clock, w'))) := by
  obtain ⟨w', hclock, ⟨hun, f, hp⟩ | ⟨hav, f, hp⟩ | ⟨hav, texts, hp⟩⟩ := prepare_cases hs w
  · exact ⟨w', hclock, .inl ⟨hun, f, bind_of_error _ hp⟩⟩
  · exact ⟨w', hclock, .inr (.inl ⟨hav, f, bind_of_error _ hp⟩)⟩
  · rw [reload, bind_of_ok _ hp, state_bind]
    exact ⟨w'.logged _, hclock, .inr (.inr ⟨hav, texts, rfl⟩)⟩

/-- A reload of messages that were given ends well and notes its time. -/
theorem reload_given {m : Messages} (h : s.injected = some m) (w : World) :
    (reload s w).1 = .ok () ∧ (reload s w).2.1.lastLook = w.clock := by
  have huse : prepare s w = useMessages m s w := by rw [prepare, state_bind, h]
  have hprepare : prepare s w
      = (.ok (), { s with messages := m, engine := ⟨m⟩, lastLook := w.clock }, w) := huse
  rw [reload, bind_of_ok _ hprepare]
  exact ⟨rfl, rfl⟩

/-- A reload that ends well notes its time, and one that fails leaves all texts and the
time of the last look as they were. -/
theorem reload_ends (s : Service) (w : World) :
    ((reload s w).1 = .ok () ∧ (reload s w).2.1.lastLook = w.clock)
      ∨ (∃ f, (reload s w).1 = .error f) ∧ (reload s w).2.1.lastLook = s.lastLook
        ∧ (reload s w).2.1.messages = s.messages ∧ (reload s w).2.1.engine = s.engine := by
  cases hs : s.injected with
  | some m => exact .inl (reload_given hs w)
  | none =>
    obtain ⟨v, -, ⟨-, f, hr⟩ | ⟨-, f, hr⟩ | ⟨-, texts, hr⟩⟩ := reload_cases hs w
    · rw [hr]
      exact .inr ⟨⟨f, rfl⟩, rfl, rfl, rfl⟩
    · rw [hr]
      exact .inr ⟨⟨f, rfl⟩, rfl, rfl, rfl⟩
    · rw [hr]
      exact .inl ⟨rfl, rfl⟩

/-- Behind the new messages, a reload only logs. -/
theorem state_reload (s : Service) (w : World) : (reload s w).2.1 = (prepare s w).2.1 := by
  refine state_bind_of_keeps (fun _ => ?_) prepare s w
  exact (keeps_state _).bind fun _ => keeps_log (fun _ _ _ => rfl) _ _ _

/-! ## Looks -/

/-- The service with a time noted for the last look. -/
def looked (s : Service) (now : Double) : Service := { s with lastLook := now }

/-- A look at the age of the messages finds them too old: it notes the time,
logs what it found and goes on to a reload from there. -/
structure FindsStale (s : Service) (w : World) (s₀ : Service) (w₀ : World) : Prop where
  injected : s.injected = none
  due : s.isTooEarly w.clock = false
  stale : ∃ age message, s.age w.clock = some age ∧ s.catalogs.settings.maxAge.isBelow age = true
    ∧ staleMessage age s.catalogs.settings.maxAge = .ok message
    ∧ w₀ = w.logged [⟨.info, .service, message⟩]
  state_eq : s₀ = s.looked w.clock

/-- The reload is started at the time of the look, and in between nothing but
the time of the last look was noted. -/
theorem FindsStale.start {s₀ : Service} {w w₀ : World} (h : FindsStale s w s₀ w₀) :
    s₀ = s.looked w.clock ∧ w₀.clock = w.clock := by
  obtain ⟨age, message, -, -, -, rfl⟩ := h.stale
  exact ⟨h.state_eq, rfl⟩

/-- At this time a look finds nothing to do. -/
def Settled (s : Service) (now : Double) : Prop :=
  s.isTooEarly now = true ∨ ∀ age ∈ s.age now, s.catalogs.settings.maxAge.isBelow age = false

theorem not_findsStale_of_settled {w : World} (h : s.Settled w.clock) (s₀ : Service) (w₀ : World) :
    ¬ FindsStale s w s₀ w₀ := by
  intro hf
  obtain ⟨age, message, hage, hold, -⟩ := hf.stale
  rcases h with hearly | hfresh
  · rw [hf.due] at hearly
    cases hearly
  · rw [hfresh age hage] at hold
    cases hold

/-- A look at a service without a source of its own, when it is time for one. -/
theorem look_of_due {w : World} (hs : s.injected = none) (hdue : s.isTooEarly w.clock = false) :
    look s w = reloadIfOld (s.looked w.clock) w := by
  have hgo : ¬ (s.injected.isSome || s.isTooEarly w.clock) = true := by simp [hs, hdue]
  rw [look, state_bind, world_bind, if_neg hgo, changeState_bind]
  rfl

/-- A look that finds stale messages ends as the reload that it starts. -/
theorem look_of_findsStale {w : World} {s₀ : Service} {w₀ : World} (h : FindsStale s w s₀ w₀) :
    look s w = reload s₀ w₀ := by
  obtain ⟨age, message, hage, hold, hmessage, rfl⟩ := h.stale
  obtain rfl := h.state_eq
  have hage' : (s.looked w.clock).age w.clock = some age := hage
  have hold' : (s.looked w.clock).catalogs.settings.maxAge.isBelow age = true := hold
  have hmessage' : staleMessage age (s.looked w.clock).catalogs.settings.maxAge = .ok message :=
    hmessage
  rw [look_of_due h.injected h.due, reloadIfOld, state_bind, world_bind]
  simp only [hage', hold', if_true, hmessage', ofExcept_ok_bind, log_bind]

/-- A look starts a reload, or it fails because it cannot say what it found,
or there is nothing to do, and then there is nothing to do for another one. -/
theorem look_cases (s : Service) (w : World) :
    (∃ s₀ w₀, FindsStale s w s₀ w₀)
      ∨ (∃ f, look s w = (.error f, s.looked w.clock, w))
      ∨ (look s w = (.ok (), s, w) ∧ s.Settled w.clock)
      ∨ (look s w = (.ok (), s.looked w.clock, w) ∧ (s.looked w.clock).Settled w.clock) := by
  cases hs : s.injected with
  | some m =>
    refine .inr (.inr (.inl ⟨?_, .inr ?_⟩))
    · rw [look, state_bind, world_bind, hs]
      rfl
    · simp [age, hs]
  | none =>
    cases hdue : s.isTooEarly w.clock with
    | true =>
      refine .inr (.inr (.inl ⟨?_, .inl hdue⟩))
      rw [look, state_bind, world_bind, if_pos (by simp [hdue])]
      rfl
    | false =>
      have hlook := look_of_due hs hdue
      rw [reloadIfOld, state_bind, world_bind] at hlook
      cases hage : s.age w.clock with
      | none =>
        have hage' : (s.looked w.clock).age w.clock = none := hage
        simp only [hage'] at hlook
        exact .inr (.inr (.inr ⟨hlook, .inr (by simp [hage'])⟩))
      | some age =>
        have hage' : (s.looked w.clock).age w.clock = some age := hage
        simp only [hage'] at hlook
        cases hold : s.catalogs.settings.maxAge.isBelow age with
        | false =>
          have hold' : (s.looked w.clock).catalogs.settings.maxAge.isBelow age = false := hold
          rw [hold'] at hlook
          exact .inr (.inr (.inr ⟨hlook, .inr (by simp [hage', hold'])⟩))
        | true =>
          have hold' : (s.looked w.clock).catalogs.settings.maxAge.isBelow age = true := hold
          cases hmessage : staleMessage age s.catalogs.settings.maxAge with
          | ok message =>
            exact .inl ⟨_, _, hs, hdue, ⟨age, message, hage, hold, hmessage, rfl⟩, rfl⟩
          | error f =>
            have hmessage' : staleMessage age (s.looked w.clock).catalogs.settings.maxAge
                = .error f := hmessage
            simp only [hold', if_true, hmessage', ofExcept_error_bind] at hlook
            exact .inr (.inl ⟨f, hlook⟩)

end Service

end FieldCheck
