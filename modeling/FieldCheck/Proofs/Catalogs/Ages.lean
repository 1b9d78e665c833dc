/-
FieldCheck.Proofs.Catalogs.Ages — the ages of catalogs tell which loads had a result.

Every load of a catalog is an `Attempt`: a locale that was asked for, the time of the clock,
and whether a catalog was returned. An attempt `Loads` the locale that is meant, so nothing,
the empty text and the name of the default locale are one locale. Between two attempts the
world may become any other one. What is known about the files, the network and the place
where catalogs live has no influence at all.

What a single load does to the time of a locale is said by `time?_noted`: it notes the time
of its own locale, and only if it returns. Along a run of loads the time of a locale is
therefore that of the last attempt that loaded it (`Attempts.time?_eq`), and the age is the
difference to it (`age_of_attempts`).
-/
import FieldCheck.Proofs.Catalogs.Cache
import FieldCheck.Proofs.Service.FailedReload

namespace FieldCheck

namespace Catalogs

open Service (localeValue)

/-! ## The time of a locale -/

theorem time?_setTime (c : Catalogs) (locale other : String) (t : Double) :
    time? { c with loadedAt := setTime (.text locale) t c.loadedAt } (.text other)
      = if other = locale then some t else c.time? (.text other) := by
  by_cases h : other = locale
  · subst h
    rw [if_pos rfl, time?_setTime_self]
  · have hother : Value.sameKey (.text other) (.text locale) = false := by
      simpa [Value.sameKey, Value.sameAtom] using h
    -- The times that are thrown away are those of the locale that was loaded.
    have hkept : ∀ x : Value × Double,
        decide ((!Value.sameKey (.text locale) x.1) = true ∧ Value.sameKey (.text other) x.1 = true)
          = Value.sameKey (.text other) x.1 := by
      intro x
      cases hx : Value.sameKey (.text other) x.1 with
      | false => simp
      | true =>
        have hlocale : ¬ Value.sameKey (.text locale) x.1 = true := by
          rw [(Value.sameKey_text other x.1).1 hx, Value.sameKey_text, Value.text.injEq]
          exact h
        simpa using hlocale
    simp only [if_neg h, time?, setTime, List.find?_cons, hother, List.find?_filter, hkept]

/-- A load that returns notes the time of the locale that is meant, and of no other one. -/
theorem time?_noted (c : Catalogs) (asked : Option String) (locale : String) (now : Double) :
    (c.noted (localeValue asked) now).time? (.text locale)
      = if locale = localeName c.settings asked then some now else c.time? (.text locale) := by
  rw [noted, effectiveLocale_eq, time?_setTime]

theorem age_eq (c : Catalogs) (asked : Option String) (now : Double) :
    c.age (localeValue asked) now
      = (c.time? (.text (localeName c.settings asked))).map now.sub := by
  rw [age, effectiveLocale_eq]

/-- The age of a text or of nothing can always be asked for. -/
theorem ageOrFault_eq (c : Catalogs) (asked : Option String) (now : Double) :
    c.ageOrFault (localeValue asked) now = .ok (c.age (localeValue asked) now) := by
  rw [ageOrFault, effectiveLocale_eq]
  rfl

/-! ## Attempts -/

/-- A load that was asked for, with its time, and whether a catalog was returned. -/
structure Attempt where
  locale : Option String
  time : Double
  returned : Bool

/-- The attempt returned a catalog for the locale that is meant. -/
def Attempt.Loads (s : Settings) (locale : Option String) (a : Attempt) : Prop :=
  a.returned = true ∧ localeName s a.locale = localeName s locale

instance (s : Settings) (locale : Option String) (a : Attempt) : Decidable (a.Loads s locale) :=
  inferInstanceAs (Decidable (_ ∧ _))

/-- The catalogs that loads lead to, each in a world of its own, with the last attempt in
front. -/
inductive Attempts (c₀ : Catalogs) : Catalogs → List Attempt → Prop
  | none : Attempts c₀ c₀ []
  | load {c c' : Catalogs} {w w' : World} {past : List Attempt} {r : Except Fault Value}
      (h : Attempts c₀ c past) (locale : Option String)
      (hload : Catalogs.load (localeValue locale) c w = (r, c', w')) :
      Attempts c₀ c' (⟨locale, w.clock, r.isOk⟩ :: past)

variable {c₀ c c' : Catalogs} {w w' : World} {past : List Attempt} {r : Except Fault Value}

theorem time?_load {asked : Option String} (h : load (localeValue asked) c w = (r, c', w'))
    (locale : Option String) : c'.settings = c.settings
      ∧ c'.time? (.text (localeName c.settings locale))
        = if (Attempt.mk asked w.clock r.isOk).Loads c.settings locale then some w.clock
          else c.time? (.text (localeName c.settings locale)) := by
  obtain ⟨v, -, ⟨f, hf⟩ | ⟨document, hdocument⟩⟩ := load_cases (localeValue asked) c w
  · rw [h] at hf
    cases hf
    exact ⟨rfl, (if_neg (by simp [Attempt.Loads, Except.isOk, Except.toBool])).symm⟩
  · rw [h] at hdocument
    cases hdocument
    refine ⟨rfl, ?_⟩
    rw [time?_noted]
    simp [Attempt.Loads, Except.isOk, Except.toBool, eq_comm]

theorem Attempts.settings_eq (h : Attempts c₀ c past) : c.settings = c₀.settings := by
  induction h with
  | none => rfl
  | load _ locale hload ih => rw [(time?_load hload locale).1, ih]

/-- The time of a locale is that of the last attempt that loaded it. -/
theorem Attempts.time?_eq (h : Attempts c₀ c past) (hnone : c₀.loadedAt = [])
    (locale : Option String) : c.time? (.text (localeName c₀.settings locale))
      = (past.find? fun a => a.Loads c₀.settings locale).map Attempt.time := by
  induction h with
  | none => simp [time?, hnone]
  | load h asked hload ih =>
    have hstep := (time?_load hload locale).2
    rw [h.settings_eq] at hstep
    rw [hstep, List.find?_cons, ih]
    split <;> simp_all

theorem loadedAt_of_ofConfiguration {config : Option String} {w : World} {c : Catalogs}
    (h : ofConfiguration config w = .ok c) : c.loadedAt = [] := by
  rw [ofConfiguration] at h
  cases hdocument : w.readDocument (configurationPath w.folders config) with
  | error f => simp [hdocument] at h
  | ok document =>
    simp only [hdocument] at h
    cases hs : Settings.ofDocument (configurationPath w.folders config) document with
    | error f => simp [hs, Except.map] at h
    | ok settings =>
      rw [hs] at h
      cases h
      rfl

/-- After any loads, a catalog has no age exactly if no attempt loaded its locale, and
otherwise the age is the time since the last attempt that did. A load that fails changes
no age, and a load of another locale does not either. -/
theorem age_of_attempts {config : Option String} {w₀ : World}
    (hstart : ofConfiguration config w₀ = .ok c₀) (h : Attempts c₀ c past)
    (locale : Option String) (now : Double) :
    ∃ age, c.ageOrFault (localeValue locale) now = .ok age
      ∧ (age = none ↔ ∀ a ∈ past, ¬ a.Loads c₀.settings locale)
      ∧ (∀ x, age = some x ↔ ∃ later a earlier, past = later ++ a :: earlier
        ∧ a.Loads c₀.settings locale ∧ (∀ b ∈ later, ¬ b.Loads c₀.settings locale)
        ∧ x = now.sub a.time)
      ∧ ∀ (asked : Option String) (w w' : World) (r : Except Fault Value) (c' : Catalogs),
        load (localeValue asked) c w = (r, c', w') →
        (r.isOk = false ∨ localeName c₀.settings asked ≠ localeName c₀.settings locale) →
        c'.ageOrFault (localeValue locale) now = .ok age := by
  have hnone := loadedAt_of_ofConfiguration hstart
  have htime := h.time?_eq hnone locale
  refine ⟨_, ageOrFault_eq c locale now, ?_, fun x => ?_, fun asked w w' r c' hload hno => ?_⟩
  · rw [age_eq, h.settings_eq, htime]
    simp
  · rw [age_eq, h.settings_eq, htime]
    simp only [Option.map_eq_some_iff, List.find?_eq_some_iff_append, decide_eq_true_iff]
    constructor
    · rintro ⟨t, ⟨a, ⟨ha, later, earlier, hpast, hlater⟩, rfl⟩, rfl⟩
      exact ⟨later, a, earlier, hpast, ha, by simpa using hlater, rfl⟩
    · rintro ⟨later, a, earlier, hpast, ha, hlater, rfl⟩
      exact ⟨_, ⟨a, ⟨ha, later, earlier, hpast, by simpa using hlater⟩, rfl⟩, rfl⟩
  · obtain ⟨hsettings, hsame⟩ := time?_load hload locale
    have hnot : ¬ (Attempt.mk asked w.clock r.isOk).Loads c.settings locale := by
      rw [h.settings_eq]
      rintro ⟨hreturned, hlocale⟩
      rcases hno with hfailed | hother
      · have hreturned : r.isOk = true := hreturned
        rw [hfailed] at hreturned
        cases hreturned
      · exact hother hlocale
    rw [ageOrFault_eq, age_eq, age_eq, hsettings, hsame, if_neg hnot]

/-- The catalogs of a folder that has one for English only. -/
def shelvedCatalogs : Catalogs := ⟨"/c", ⟨"m", "en", .whole 1800, .warning⟩, []⟩

theorem ofConfiguration_shelf :
    ofConfiguration (some "/c") (Service.shelf (.dict []) .zero) = .ok shelvedCatalogs := rfl

theorem attempts_shelf : ∃ c, Attempts shelvedCatalogs c
    [⟨some "de", Service.later, false⟩, ⟨some "", .zero, true⟩] := by
  have hfirst : ∃ c w, load (localeValue (some "")) shelvedCatalogs (Service.shelf (.dict []) .zero)
      = (.ok (.dict []), c, w) ∧ c = shelvedCatalogs.noted (.text "") .zero := ⟨_, _, rfl, rfl⟩
  obtain ⟨c, w, hfirst, rfl⟩ := hfirst
  have hsecond : ∃ f c' w', load (localeValue (some "de")) (shelvedCatalogs.noted (.text "") .zero)
      (Service.shelf (.dict []) Service.later) = (.error f, c', w') := ⟨_, _, _, rfl⟩
  obtain ⟨f, c', w', hsecond⟩ := hsecond
  exact ⟨c', (Attempts.none.load (some "") hfirst).load (some "de") hsecond⟩

/-- The English catalog was loaded as the default one. The German one was asked for later,
and in vain. -/
theorem age_of_attempts_shelf :
    ofConfiguration (some "/c") (Service.shelf (.dict []) .zero) = .ok shelvedCatalogs
      ∧ ∃ c, Attempts shelvedCatalogs c [⟨some "de", Service.later, false⟩, ⟨some "", .zero, true⟩]
        ∧ c.ageOrFault (localeValue (some "en")) Service.later
          = .ok (some (Service.later.sub .zero))
        ∧ c.ageOrFault (localeValue (some "de")) Service.later = .ok none := by
  obtain ⟨c, hattempts⟩ := attempts_shelf
  obtain ⟨age, hage, -, hsome, -⟩ :=
    age_of_attempts ofConfiguration_shelf hattempts (some "en") Service.later
  obtain ⟨age', hage', hnone, -, -⟩ :=
    age_of_attempts ofConfiguration_shelf hattempts (some "de") Service.later
  have hen : age = some (Service.later.sub .zero) :=
    (hsome _).2 ⟨[⟨some "de", Service.later, false⟩], ⟨some "", .zero, true⟩, [], rfl, by decide,
      by decide, rfl⟩
  have hde : age' = none := hnone.2 (by decide)
  rw [hen] at hage
  rw [hde] at hage'
  exact ⟨ofConfiguration_shelf, c, hattempts, hage, hage'⟩

end Catalogs

end FieldCheck
