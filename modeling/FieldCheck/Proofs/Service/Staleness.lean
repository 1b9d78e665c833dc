/-
FieldCheck.Proofs.Service.Staleness — how old messages can get.

A service looks at the age of its messages at most every five minutes, so they
can be older than the configuration allows, but by less than five minutes. No
single step shows this bound. What is kept along a run (`IsFresh`) is that the
messages were young enough at the time of the last look; from then on they age
with the clock until the next look, which is due after five minutes
(`age_lt_of_run`).

`Run` follows the time at which the messages were last looked at or loaded by
the calls alone, and `Run.isFresh` says that the service keeps the same time.
The times of a run may come in any order. They are exact numbers
(`Double.IsExact`), since an age that is rounded could reach the bound.

In a call the clock stands still, so the age right after a call is the age at the
time of the call.
-/
import FieldCheck.Proofs.Number.Order
import FieldCheck.Proofs.Service.FailedReload

namespace FieldCheck

open FieldCheck.Action

namespace Service

open Double (seconds IsExact)

variable {s s' : Service} {w w₁ w' : World} {times : Set Double} {seen : Double} {call : Call}

/-! ## Runs -/

/-- Every reload in the course of the call is successful. -/
def Call.LoadsWell (call : Call) (s : Service) (w : World) : Prop :=
  ∀ s₀ w₀, call.Reloads s w s₀ w₀ → (Service.reload s₀ w₀).1 = .ok ()

/-- When the messages were last looked at or loaded, if that was at the first
time before the call. A look is due after five minutes. -/
inductive Call.Marks (s : Service) (w : World) (seen : Double) : Call → Double → Prop
  | reload : Marks s w seen .reload w.clock
  | due {call : Call} {w₁ : World} (h : call.Looks s w w₁)
      (hdue : 300 ≤ seconds w.clock - seconds seen) : Marks s w seen call w.clock
  | early {call : Call} {w₁ : World} (h : call.Looks s w w₁)
      (hearly : seconds w.clock - seconds seen < 300) : Marks s w seen call seen
  | other {call : Call} (hreload : call ≠ .reload) (h : ∀ w₁, ¬ call.Looks s w w₁) :
      Marks s w seen call seen

/-- The services without a source of their own that calls lead to, each at one of
some times, if no load fails. With each goes the time at which its messages were
last looked at or loaded. -/
inductive Run (times : Set Double) : Service → Double → Prop
  | start {config locale : Option String} {w w' : World} {s : Service}
      (h : Service.start config none (localeValue locale) w = (.ok s, w'))
      (htime : w.clock ∈ times) : Run times s w.clock
  | call {s s' : Service} {seen seen' : Double} {w w' : World} {r : Except Fault Unit}
      (h : Run times s seen) (call : Call) (htime : w.clock ∈ times) (hloads : call.LoadsWell s w)
      (hmarks : call.Marks s w seen seen') (hcall : call.run s w = (r, s', w')) : Run times s' seen'

/-! ## What is kept -/

/-- The messages were loaded at one of the times, and they were young enough at
the time of the last look. -/
structure IsFresh (times : Set Double) (s : Service) (seen : Double) : Prop where
  own : s.injected = none
  configured : IsConfigured s
  looked : s.lastLook = seen
  looked_mem : seen ∈ times
  loaded : ∃ t ∈ times, (∀ now, s.age now = some (now.sub t))
    ∧ ∀ limit, s.catalogs.settings.maxAge.value? = some limit → seconds seen - seconds t ≤ limit

/-- Messages that were just loaded are young enough. -/
theorem isFresh_renewed (hown : s.injected = none) (hconf : IsConfigured s) (m : Messages)
    (htime : w.clock ∈ times) : IsFresh times (s.renewed m w.clock) w.clock where
  own := hown
  configured := hconf.of_setup rfl
  looked := rfl
  looked_mem := htime
  loaded := by
    refine ⟨w.clock, htime, hconf.age_noted hown w.clock, ?_⟩
    intro limit hlimit
    rw [sub_self]
    exact Quantity.nonneg_of_value? hlimit hconf.maxAge_nonneg

/-- A reload that is successful leaves messages that are young enough. -/
theorem isFresh_of_reload (hown : s.injected = none) (hconf : IsConfigured s)
    (htime : w.clock ∈ times) (hok : (reload s w).1 = .ok ()) :
    IsFresh times (reload s w).2.1 w.clock := by
  obtain ⟨v, -, ⟨-, f, hr⟩ | ⟨-, f, hr⟩ | ⟨-, texts, hr⟩⟩ := reload_cases hown w
  · rw [hr] at hok
    cases hok
  · rw [hr] at hok
    cases hok
  · rw [hr]
    exact isFresh_renewed hown hconf (.catalog texts) htime

theorem isFresh_of_start {config locale : Option String}
    (h : Service.start config none (localeValue locale) w = (.ok s, w'))
    (htime : w.clock ∈ times) : IsFresh times s w.clock := by
  obtain ⟨c, hc, hprepare⟩ := exists_of_start h
  have hown : (unready c none (localeValue locale)).injected = none := rfl
  obtain ⟨v, -, ⟨-, f, hp⟩ | ⟨-, f, hp⟩ | ⟨-, texts, hp⟩⟩ := prepare_cases hown w
  · rw [hp] at hprepare
    cases hprepare
  · rw [hp] at hprepare
    cases hprepare
  · rw [hp] at hprepare
    cases hprepare
    exact isFresh_renewed hown (isConfigured_unready hc) (.catalog texts) htime

/-! ## Looks -/

/-- It is too early for a look exactly within five minutes after the last one. -/
theorem isTooEarly_iff (hexact : IsExact times) (h : IsFresh times s seen)
    (htime : w.clock ∈ times) :
    s.isTooEarly w.clock = true ↔ seconds w.clock - seconds seen < 300 := by
  have hsub := hexact w.clock htime seen h.looked_mem
  rw [isTooEarly, h.looked, Double.ltInt_iff hsub]
  norm_num [lookInterval]

/-- A look that is due and finds messages that are too old can say so. -/
theorem findsStale_of_isFresh (hexact : IsExact times) (h : IsFresh times s seen)
    (htime : w.clock ∈ times) (hdue : s.isTooEarly w.clock = false) {age : Double}
    (hage : s.age w.clock = some age) (hold : s.catalogs.settings.maxAge.isBelow age = true) :
    ∃ w₀, FindsStale s w (s.looked w.clock) w₀ := by
  obtain ⟨t, ht, hloaded, -⟩ := h.loaded
  have hsub := hexact w.clock htime t ht
  obtain rfl : w.clock.sub t = age := by simpa [hloaded] using hage
  have hwritable := Quantity.isWritable_toValue hsub h.configured.maxAge_nonneg hold
  have hmessage : ∃ message, staleMessage (w.clock.sub t) s.catalogs.settings.maxAge
      = .ok message := by
    simp [staleMessage, Value.display, hwritable, Except.map]
  obtain ⟨message, hmessage⟩ := hmessage
  exact ⟨_, h.own, hdue, ⟨_, message, hage, hold, hmessage, rfl⟩, rfl⟩

/-- A look that is due leaves messages that are young enough now, if it can load new ones. -/
theorem look_of_isFresh_due (hexact : IsExact times) (h : IsFresh times s seen)
    (htime : w.clock ∈ times) (hdue : s.isTooEarly w.clock = false)
    (hloads : ∀ s₀ w₀, FindsStale s w s₀ w₀ → (reload s₀ w₀).1 = .ok ()) :
    ∃ s' w', look s w = (.ok (), s', w') ∧ IsFresh times s' w.clock := by
  obtain ⟨t, ht, hloaded, -⟩ := h.loaded
  have hsub := hexact w.clock htime t ht
  cases hold : s.catalogs.settings.maxAge.isBelow (w.clock.sub t) with
  | true =>
    obtain ⟨w₀, hstale⟩ := findsStale_of_isFresh hexact h htime hdue (hloaded _) hold
    have hok := hloads _ _ hstale
    have hclock := hstale.start.2
    have hfresh := isFresh_of_reload (s := s.looked w.clock) h.own (h.configured.of_setup rfl)
      (by rw [hclock]; exact htime) hok
    rw [look_of_findsStale hstale]
    rcases hr : reload (s.looked w.clock) w₀ with ⟨r, s', w'⟩
    rw [hr] at hok hfresh
    obtain rfl : r = .ok () := hok
    exact ⟨s', w', rfl, by rw [← hclock]; exact hfresh⟩
  | false =>
    have hage : (s.looked w.clock).age w.clock = some (w.clock.sub t) := hloaded w.clock
    have hold' : (s.looked w.clock).catalogs.settings.maxAge.isBelow (w.clock.sub t) = false := hold
    refine ⟨s.looked w.clock, w, ?_, h.own, h.configured.of_setup rfl, rfl, htime,
      t, ht, hloaded, ?_⟩
    · rw [look_of_due h.own hdue, reloadIfOld, state_bind, world_bind]
      simp only [hage, hold']
      rfl
    · intro limit hlimit
      have hle := (Quantity.isBelow_iff hlimit hsub).not.1 (by simp [hold'])
      exact not_lt.1 hle

/-! ## Calls -/

/-- A call in which no load fails keeps the messages young enough. -/
theorem IsFresh.run {seen' : Double} {r : Except Fault Unit} (h : IsFresh times s seen)
    (hexact : IsExact times) (htime : w.clock ∈ times) (hloads : call.LoadsWell s w)
    (hmarks : call.Marks s w seen seen') (hcall : call.run s w = (r, s', w')) :
    IsFresh times s' seen' := by
  have hstate : (call.run s w).2.1 = s' := by rw [hcall]
  rw [← hstate]
  cases hmarks with
  | reload => exact isFresh_of_reload h.own h.configured htime (hloads s w (.reload s w))
  | @due _ w₁ hlooks hdue =>
    have hclock := hlooks.clock_eq
    have htime₁ : w₁.clock ∈ times := by rw [hclock]; exact htime
    have hnot : ¬ s.isTooEarly w₁.clock = true := by
      rw [isTooEarly_iff hexact h htime₁, hclock]
      exact not_lt.2 hdue
    obtain ⟨s₁, w₂, hlook, hfresh⟩ := look_of_isFresh_due hexact h htime₁ (by simpa using hnot)
      fun s₀ w₀ hstale => hloads s₀ w₀ (hlooks.reloads hstale)
    rw [hclock] at hfresh
    rw [hlooks.state_look h.configured, hlook]
    exact hfresh
  | @early _ w₁ hlooks hearly =>
    have htoo : s.isTooEarly w.clock = true := (isTooEarly_iff hexact h htime).2 hearly
    have hlook : look s w₁ = (.ok (), s, w₁) :=
      look_of_tooEarly (by rw [hlooks.clock_eq]; exact htoo)
    rw [hlooks.state_look h.configured, hlook]
    exact h
  | other hreload hlooks =>
    rw [Call.state_of_not_looks hreload hlooks]
    exact h

/-- Along a run in which no load fails the messages are kept young enough. -/
theorem Run.isFresh (hexact : IsExact times) (h : Run times s seen) : IsFresh times s seen := by
  induction h with
  | start hstart htime => exact isFresh_of_start hstart htime
  | call _ call htime hloads hmarks hcall ih => exact ih.run hexact htime hloads hmarks hcall

/-- Right after a call that looks at the age of the messages they are less than
five minutes older than the configuration allows. They are not older than that
at all if at least five minutes had gone by since they were last looked at or loaded. -/
theorem age_lt_of_run {limit : ℚ} {r : Except Fault Unit} (hexact : IsExact times)
    (hrun : Run times s seen) (hlimit : s.catalogs.settings.maxAge.value? = some limit)
    (htime : w.clock ∈ times) (hlooks : call.Looks s w w₁) (hloads : call.LoadsWell s w)
    (hcall : call.run s w = (r, s', w')) :
    ∃ age q, s'.age w'.clock = some age ∧ age.value? = some q ∧ q < limit + 300
      ∧ (300 ≤ seconds w.clock - seconds seen → q ≤ limit) := by
  have hsetup := call.keeps_run ignoresCalls_setup s w
  have hclock := call.keeps_run ignoresCalls_clock s w
  rw [hcall] at hsetup hclock
  have hclock : w'.clock = w.clock := hclock
  have hlimit' : s'.catalogs.settings.maxAge.value? = some limit := by
    simp only [setup, Prod.mk.injEq] at hsetup
    rw [hsetup.1]
    exact hlimit
  have hage : ∀ {seen'}, IsFresh times s' seen' → ∃ t ∈ times, s'.age w'.clock
      = some (w.clock.sub t) ∧ seconds seen' - seconds t ≤ limit := by
    intro seen' hfresh
    obtain ⟨t, ht, hloaded, hyoung⟩ := hfresh.loaded
    exact ⟨t, ht, by rw [hloaded, hclock], hyoung limit hlimit'⟩
  have hfresh := hrun.isFresh hexact
  by_cases hdue : 300 ≤ seconds w.clock - seconds seen
  · obtain ⟨t, ht, hold, hle⟩ := hage (hfresh.run hexact htime hloads (.due hlooks hdue) hcall)
    refine ⟨_, _, hold, hexact _ htime t ht, ?_, fun _ => hle⟩
    linarith
  · have hearly := not_le.1 hdue
    obtain ⟨t, ht, hold, hle⟩ := hage (hfresh.run hexact htime hloads (.early hlooks hearly) hcall)
    refine ⟨_, _, hold, hexact _ htime t ht, ?_, fun h => absurd h hdue⟩
    linarith

/-- The times at which the service with the empty catalog is started and used. -/
def twoTimes : Set Double := {.zero, later}

theorem isExact_twoTimes : IsExact twoTimes := by
  rintro a (rfl | rfl) b (rfl | rfl) <;> decide +kernel

theorem run_shelved : Run twoTimes shelved .zero := by
  obtain ⟨w', h⟩ := start_shelved
  exact .start h (.inl rfl)

/-- A check that finds messages that are 2000 seconds old, and gets new ones. -/
theorem age_lt_of_run_shelved :
    IsExact twoTimes ∧ Run twoTimes shelved .zero
      ∧ shelved.catalogs.settings.maxAge.value? = some 1800
      ∧ (Call.check (.list []) .null).Looks shelved (shelf (.dict []) later) (shelf (.dict []) later)
      ∧ (Call.check (.list []) .null).LoadsWell shelved (shelf (.dict []) later)
      ∧ ∃ r s' w' age q, (Call.check (.list []) .null).run shelved (shelf (.dict []) later)
          = (r, s', w')
        ∧ s'.age w'.clock = some age ∧ age.value? = some q ∧ q < 1800 + 300
        ∧ (300 ≤ seconds later - seconds .zero → q ≤ 1800) := by
  have hlimit : shelved.catalogs.settings.maxAge.value? = some 1800 := rfl
  have hlooks : (Call.check (.list []) .null).Looks shelved (shelf (.dict []) later)
      (shelf (.dict []) later) := .check _ _
  have hloads : (Call.check (.list []) .null).LoadsWell shelved (shelf (.dict []) later) := by
    intro s₀ w₀ h
    cases h with
    | check hstale =>
      obtain ⟨age, message, hage, -, hmessage, rfl⟩ := hstale.stale
      obtain rfl := hstale.state_eq
      obtain rfl : later = age := Option.some.inj (age_shelved.symm.trans hage)
      obtain rfl := Except.ok.inj (staleMessage_later.symm.trans hmessage)
      rfl
  rcases hcall : (Call.check (.list []) .null).run shelved (shelf (.dict []) later)
    with ⟨r, s', w'⟩
  have htime : (shelf (.dict []) later).clock ∈ twoTimes := .inr rfl
  obtain ⟨age, q, h⟩ := age_lt_of_run isExact_twoTimes run_shelved hlimit htime hlooks hloads hcall
  exact ⟨isExact_twoTimes, run_shelved, hlimit, hlooks, hloads, r, s', w', age, q, rfl, h⟩

end Service

end FieldCheck
