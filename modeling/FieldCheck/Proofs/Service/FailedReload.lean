/-
FieldCheck.Proofs.Service.FailedReload — a reload that fails, seen from outside.

A call that goes on to a reload ends as that reload does (`Call.Reloads`). When
the reload fails, what a caller can ask for afterwards is compared with what the
same questions were answered before the call: the message under every key, the
report on every outcome, the age of the messages at every time.

The texts are always the same. The age is the same exactly when no document
came from the location of the catalog (`call_of_failing_reload`). A document
that holds no messages makes the messages look as if they were just loaded,
although none were replaced (`age_shelved_of_malformed`).
-/
import FieldCheck.Proofs.Service.Looking

namespace FieldCheck

open FieldCheck.Action

namespace Service

variable {s : Service}

/-! ## What a caller sees -/

/-- Two services give the same message under every key and the same report on
every outcome, and log the same on the way. -/
def SameTexts (s s' : Service) : Prop :=
  (∀ key v, (message key s' v).1 = (message key s v).1 ∧ (message key s' v).2.2 = (message key s v).2.2)
    ∧ ∀ o v, (report o s' v).1 = (report o s v).1 ∧ (report o s' v).2.2 = (report o s v).2.2

theorem sameTexts_of_messages {s' : Service} (h : s'.messages = s.messages)
    (hengine : s'.engine = s.engine) : SameTexts s s' := by
  constructor
  · intro key v
    rw [message, state_bind, state_bind, h]
    exact ⟨rfl, rfl⟩
  · intro o v
    rw [report, state_bind, state_bind, hengine]
    exact ⟨rfl, rfl⟩

/-- A call that goes on to a reload that fails leaves every text as it was.
It leaves the age of the messages as it was exactly when no document came from
the location of the catalog, or the messages were as old as new ones anyway.
When a document came, the messages are as old as if they had just been loaded. -/
theorem call_of_failing_reload {call : Call} {s s₀ s₁ : Service} {w w₀ w₁ : World} {f : Fault}
    (hs : Reachable s) (hown : s.injected = none) (hcall : call.Reloads s w s₀ w₀)
    (hfail : reload s₀ w₀ = (.error f, s₁, w₁)) :
    call.run s w = (.error f, s₁, w₁) ∧ SameTexts s s₁
      ∧ (∀ now, s₁.age now = s.age now ↔ Unavailable s₀ w₀ ∨ s.age now = some (now.sub w.clock))
      ∧ (¬ Unavailable s₀ w₀ → ∀ now, s₁.age now = some (now.sub w.clock)) := by
  have hconf := hs.isConfigured
  obtain ⟨l, hl⟩ := hconf.locale_isText
  obtain ⟨hstart, hclock⟩ := hcall.start hconf
  -- The reload starts from a service that a caller cannot tell from `s`.
  have hown₀ : s₀.injected = none := by rcases hstart with rfl | rfl <;> exact hown
  have htexts : s₀.messages = s.messages := by rcases hstart with rfl | rfl <;> rfl
  have hengine : s₀.engine = s.engine := by rcases hstart with rfl | rfl <;> rfl
  have hage : ∀ now, s₀.age now = s.age now := by rcases hstart with rfl | rfl <;> exact fun _ => rfl
  have hnoted : ∀ now, (s₀.noted w₀.clock).age now = some (now.sub w.clock) := by
    intro now
    have hown' : (s₀.noted w₀.clock).injected = none := hown₀
    have hl₀ : s₀.catalogs.settings.effectiveLocale s₀.locale = .text l := by
      rcases hstart with rfl | rfl <;> exact hl
    rw [age, hown', hclock]
    exact Catalogs.age_noted hl₀ w.clock now
  refine ⟨hcall.run_of_error hconf hfail, ?_⟩
  obtain ⟨v, -, ⟨hun, g, hr⟩ | ⟨hav, g, hr⟩ | ⟨-, m, hr⟩⟩ := reload_cases hown₀ w₀
  · rw [hr] at hfail
    cases hfail
    exact ⟨sameTexts_of_messages htexts hengine, fun now => ⟨fun _ => .inl hun, fun _ => hage now⟩,
      fun hav => absurd hun hav⟩
  · rw [hr] at hfail
    cases hfail
    refine ⟨sameTexts_of_messages htexts hengine, fun now => ?_, fun _ => hnoted⟩
    rw [hnoted now]
    constructor
    · intro h
      exact .inr h.symm
    · rintro (hun | h)
      · exact absurd hun hav
      · exact h.symm
  · rw [hr] at hfail
    cases hfail

/-- A world with a configuration, and a catalog for English in the folder `m`. -/
def shelf (catalog : Value) (now : Double) : World where
  folders := ⟨"/", "/", "/cache"⟩
  files := ⟨[(["c"], .file (.document (.dict [(.text Settings.locationKey, .text "m"),
      (.text Settings.localeKey, .text "en")])) .zero),
    (["m"], .folder .zero), (["m", "en.yaml"], .file (.document catalog) .zero)]⟩
  web := []
  clock := now
  calls := []
  log := []

/-- The service that is started there at time zero, with an empty catalog. -/
def shelved : Service where
  catalogs := ⟨"/c", ⟨"m", "en", .whole 1800, .warning⟩, [(.text "en", .zero)]⟩
  locale := .text "en"
  injected := none
  messages := .catalog []
  engine := ⟨.catalog []⟩
  lastLook := .zero

theorem start_shelved : ∃ w', start (some "/c") none (localeValue none) (shelf (.dict []) .zero)
    = (.ok shelved, w') := ⟨_, rfl⟩

theorem reachable_shelved : Reachable shelved := by
  obtain ⟨w', h⟩ := start_shelved
  exact .start h

/-- A time more than half an hour after the start, in seconds: 2000. -/
def later : Double := .finite false 0x409F400000000000 (by decide)

theorem age_shelved : shelved.age later = some later := by decide +kernel

/-- Messages that are 2000 seconds old are new after a reload that replaced none of them. -/
theorem age_shelved_of_malformed :
    Reachable shelved ∧ shelved.injected = none
      ∧ Call.reload.Reloads shelved (shelf (.list [.null]) later) shelved
        (shelf (.list [.null]) later)
      ∧ ∃ s₁ w₁, Call.reload.run shelved (shelf (.list [.null]) later)
          = (.error (.catalogNotMapping "list"), s₁, w₁)
        ∧ s₁.age later = some .zero ∧ shelved.age later ≠ some .zero := by
  refine ⟨reachable_shelved, rfl, .reload _ _, shelved.noted later, _, rfl, ?_, ?_⟩
  · decide +kernel
  · decide +kernel

theorem staleMessage_later :
    staleMessage later (.whole 1800) = .ok "Message catalog stale (2000s > 1800s), reloading" := by
  have hwritable : Decimal.isWritable 1800 = true := (Decimal.digits_le_limit_iff 1800).1 (by decide)
  have hrounded : later.roundedChars = "2000".toList := by decide +kernel
  rw [staleMessage, Quantity.toValue, Value.display, Value.isWritable, hwritable, hrounded]
  rfl

/-- At that time, a look finds the messages too old, whatever the catalog is by then. -/
theorem findsStale_shelf (catalog : Value) :
    FindsStale shelved (shelf catalog later) (shelved.looked later)
      ((shelf catalog later).logged
        [⟨.info, .service, "Message catalog stale (2000s > 1800s), reloading"⟩]) := by
  have hdue : shelved.isTooEarly later = false := by decide +kernel
  exact ⟨rfl, hdue, ⟨later, _, age_shelved, by decide +kernel, staleMessage_later, rfl⟩, rfl⟩

/-- The world in which a check goes on to a reload. -/
def staleShelf : World :=
  (shelf (.list [.null]) later).logged
    [⟨.info, .service, "Message catalog stale (2000s > 1800s), reloading"⟩]

theorem findsStale_shelved :
    FindsStale shelved (shelf (.list [.null]) later) (shelved.looked later) staleShelf :=
  findsStale_shelf _

theorem call_of_failing_reload_shelved :
    Reachable shelved ∧ shelved.injected = none ∧ ∃ s₁ w₁,
      (Call.check (.list []) .null).Reloads shelved (shelf (.list [.null]) later)
        (shelved.looked later) staleShelf
      ∧ reload (shelved.looked later) staleShelf = (.error (.catalogNotMapping "list"), s₁, w₁)
      ∧ (Call.check (.list []) .null).run shelved (shelf (.list [.null]) later)
        = (.error (.catalogNotMapping "list"), s₁, w₁)
      ∧ SameTexts shelved s₁
      ∧ (∀ now, s₁.age now = shelved.age now ↔ Unavailable (shelved.looked later) staleShelf
        ∨ shelved.age now = some (now.sub later))
      ∧ (¬ Unavailable (shelved.looked later) staleShelf →
        ∀ now, s₁.age now = some (now.sub later)) := by
  have hfail : ∃ w₁, reload (shelved.looked later) staleShelf
      = (.error (.catalogNotMapping "list"), (shelved.looked later).noted later, w₁) := ⟨_, rfl⟩
  obtain ⟨w₁, hfail⟩ := hfail
  have hcall : (Call.check (.list []) .null).Reloads shelved (shelf (.list [.null]) later)
      (shelved.looked later) staleShelf := .check findsStale_shelved
  exact ⟨reachable_shelved, rfl, _, w₁, hcall, hfail,
    call_of_failing_reload reachable_shelved rfl hcall hfail⟩

end Service

end FieldCheck
