/-
FieldCheck.Proofs.Catalogs.Configuration — which configurations are accepted.

`IsConfiguration` says what a configuration is: a dictionary in which a location and
a locale are given, and an age and a level may be. The schema says the same in terms of
rules, and it is a little wider in two places (`accepts_iff`). Its pattern for locales
ends in front of a line feed, and its bound for ages only refuses what is less than
zero, so the number that compares with nothing is within it.

Catalogs are made for a configuration file exactly when the schema accepts what is in
it, and otherwise the fault is one about the configuration (`ofConfiguration_ends`).
-/
import FieldCheck.Catalogs
import FieldCheck.Proofs.Locale
import FieldCheck.Proofs.Schema

namespace FieldCheck

namespace Settings

/-! ## Configurations -/

/-- A number that is at least zero. -/
inductive IsAge : Value → Prop
  | whole {n : Int} (h : 0 ≤ n) : IsAge (.int n)
  | real {x : Double} (h : Double.zero.le x = true) : IsAge (.float x)

/-- A number that is at least zero, or the one that compares with nothing. -/
inductive IsAgeOrNan : Value → Prop
  | age {v : Value} (h : IsAge v) : IsAgeOrNan v
  | nan : IsAgeOrNan (.float .nan)

/-- The names of levels in a configuration. -/
def levelNames : List String := ["DEBUG", "INFO", "WARNING", "ERROR", "CRITICAL"]

/-- A dictionary with a location that is not empty and with a locale. An age and a
level are as they have to be if they are there. -/
structure IsConfiguration (isLocale : List Char → Prop) (isAge : Value → Prop) (v : Value) :
    Prop where
  isDict : ∃ entries, v = .dict entries
  location : ∃ s, v.field? locationKey = some (.text s) ∧ s ≠ ""
  locale : ∃ s, v.field? localeKey = some (.text s) ∧ isLocale s.toList
  age : ∀ x, v.field? maxAgeKey = some x → isAge x
  level : ∀ x, v.field? logLevelKey = some x → ∃ s ∈ levelNames, x = .text s

theorem IsConfiguration.mono {isLocale isLocale' : List Char → Prop} {isAge isAge' : Value → Prop}
    {v : Value} (h : IsConfiguration isLocale isAge v)
    (hlocale : ∀ s, v.field? localeKey = some (.text s) → isLocale s.toList → isLocale' s.toList)
    (hage : ∀ x, v.field? maxAgeKey = some x → isAge x → isAge' x) :
    IsConfiguration isLocale' isAge' v := by
  obtain ⟨s, hs, hislocale⟩ := h.locale
  exact ⟨h.isDict, h.location, ⟨s, hs, hlocale s hs hislocale⟩,
    fun x hx => hage x hx (h.age x hx), h.level⟩

/-! ## The rules of the schema -/

theorem isNegative_float_eq_false_iff (x : Double) :
    isNegative (.float x) = false ↔ Double.zero.le x = true ∨ x = .nan := by
  cases x with
  | nan => exact iff_of_true rfl (.inr rfl)
  | infinite negative =>
    rw [or_iff_left (by simp)]
    cases negative <;> decide
  | finite negative code bounded =>
    have hzero : Double.signedUnits false 0 = 0 := by decide
    rw [or_iff_left (by simp), isNegative, Double.ltInt, Double.zero, Double.le, hzero,
      Int.zero_mul, decide_eq_false_iff_not, decide_eq_true_iff, Int.not_lt]

/-- The rules for ages. -/
theorem isAgeOrNan_iff (v : Value) :
    IsAgeOrNan v ↔ Kind.number.holds v = true ∧ isNegative v = false := by
  constructor
  · rintro (⟨hn | hx⟩ | -)
    · exact ⟨rfl, by simpa [isNegative] using hn⟩
    · exact ⟨rfl, (isNegative_float_eq_false_iff _).2 (.inl hx)⟩
    · exact ⟨rfl, rfl⟩
  · rintro ⟨hnumber, hnegative⟩
    cases v with
    | int n => exact .age (.whole (by simpa [isNegative] using hnegative))
    | float x =>
      rcases (isNegative_float_eq_false_iff x).1 hnegative with hx | rfl
      · exact .age (.real hx)
      · exact .nan
    | _ => cases hnumber

/-- The schema accepts configurations, with a line feed behind the locale too, and with
the number that compares with nothing as an age. -/
theorem accepts_iff (v : Value) :
    schema.accepts v = true ↔ IsConfiguration Locale.IsNameOrLine IsAgeOrNan v := by
  have hlevels : Level.all.map Level.name = levelNames := rfl
  rw [Schema.accepts_iff]
  constructor
  · intro h
    simp only [schema, Schema.Holds, and_true] at h
    obtain ⟨hdict, hlocation, hlocale, hage, hlevel, hhasLocation, hhasLocale⟩ := h
    simp only [Rule.Holds, Schema.Holds, and_true, hlevels] at hdict hlocation hlocale hage hlevel
    refine ⟨(Kind.object_holds_iff v).1 hdict, ?_, ?_, fun x hx => (isAgeOrNan_iff x).2 (hage x hx),
      fun x hx => (hlevel x hx).2⟩
    · obtain ⟨x, hx⟩ := Rule.exists_field? hdict hhasLocation
      obtain ⟨htext, hne⟩ := hlocation x hx
      obtain ⟨s, rfl⟩ := (Kind.text_holds_iff x).1 htext
      exact ⟨s, hx, fun h => hne (by rw [h])⟩
    · obtain ⟨x, hx⟩ := Rule.exists_field? hdict hhasLocale
      obtain ⟨htext, hpattern⟩ := hlocale x hx
      obtain ⟨s, rfl⟩ := (Kind.text_holds_iff x).1 htext
      exact ⟨s, hx, (Locale.pattern_accepts_iff s.toList).1 (hpattern s rfl)⟩
  · rintro ⟨hdict, ⟨location, hlocation, hne⟩, ⟨locale, hlocale, hname⟩, hage, hlevel⟩
    simp only [schema, Schema.Holds, and_true]
    refine ⟨?_, ?_, ?_, ?_, ?_, Rule.holds_required hlocation, Rule.holds_required hlocale⟩
    all_goals simp only [Rule.Holds, Schema.Holds, and_true, hlevels]
    · exact (Kind.object_holds_iff v).2 hdict
    · intro x hx
      obtain rfl := Option.some.inj (hlocation.symm.trans hx)
      exact ⟨rfl, by simpa using hne⟩
    · intro x hx
      obtain rfl := Option.some.inj (hlocale.symm.trans hx)
      refine ⟨rfl, ?_⟩
      rintro s ⟨⟩
      exact (Locale.pattern_accepts_iff _).2 hname
    · exact fun x hx => (isAgeOrNan_iff x).1 (hage x hx)
    · intro x hx
      obtain ⟨s, hs, rfl⟩ := hlevel x hx
      exact ⟨rfl, s, hs, rfl⟩

/-- No line feed ends the locale, and the age compares with other numbers. -/
structure IsOrdinary (v : Value) : Prop where
  locale : ∀ s, v.field? localeKey = some (.text s) → s.toList.getLast? ≠ some '\n'
  age : v.field? maxAgeKey ≠ some (.float .nan)

theorem IsOrdinary.isConfiguration_iff {v : Value} (h : IsOrdinary v) :
    IsConfiguration Locale.IsNameOrLine IsAgeOrNan v ↔ IsConfiguration Locale.IsName IsAge v := by
  constructor
  · intro hv
    refine hv.mono (fun s hs => (Locale.isNameOrLine_iff (h.locale s hs)).1) ?_
    rintro x hx (hage | -)
    · exact hage
    · exact absurd hx h.age
  · intro hv
    exact hv.mono (fun s _ => .name) fun x _ => .age

/-- What is said about a configuration at a path that is not accepted: what it does
wrong, unless it holds a number that is too long to be written. -/
inductive IsComplaint (path : String) (v : Value) : Fault → Prop
  | invalid : IsComplaint path v (.invalidConfiguration path (schema.details "root" v))
  | tooLong (h : v.isWritable = false) : IsComplaint path v .tooLongToWrite

theorem isComplaint_of_ofDocument {path : String} {document : Value} {f : Fault}
    (h : ofDocument path document = .error f) : IsComplaint path (configurationOf document) f := by
  rw [ofDocument, Schema.complaints] at h
  by_cases haccepts : schema.accepts (configurationOf document) = true
  · simp [haccepts] at h
  by_cases hparts : (Schema.violations .top schema (configurationOf document)).all
      (·.part.isWritable) = true
  · simp only [haccepts, hparts, if_true, if_false, Bool.false_eq_true] at h
    cases h
    exact .invalid
  · simp only [haccepts, hparts, if_false, Bool.false_eq_true] at h
    cases h
    refine .tooLong (Bool.eq_false_iff.2 fun hwritable => hparts ?_)
    exact List.all_eq_true.2 fun x hx => Schema.isWritable_part hwritable hx

end Settings

namespace Catalogs

open Settings

/-- Catalogs are made for the configuration in a file exactly when it is one, up to a line
feed behind its locale and up to an age that compares with nothing. Anything else is
complained about. -/
theorem ofConfiguration_ends {config : Option String} {w : World} {document : Value}
    (h : w.readDocument (configurationPath w.folders config) = .ok document) :
    ((∃ c, ofConfiguration config w = .ok c) ↔
        IsConfiguration Locale.IsNameOrLine IsAgeOrNan (configurationOf document))
      ∧ ((∃ f, ofConfiguration config w = .error f
          ∧ IsComplaint (configurationPath w.folders config) (configurationOf document) f) ↔
        ¬ IsConfiguration Locale.IsNameOrLine IsAgeOrNan (configurationOf document))
      ∧ (IsOrdinary (configurationOf document) →
        ((∃ c, ofConfiguration config w = .ok c) ↔
          IsConfiguration Locale.IsName IsAge (configurationOf document))) := by
  suffices hends : ((∃ c, ofConfiguration config w = .ok c) ↔
        IsConfiguration Locale.IsNameOrLine IsAgeOrNan (configurationOf document))
      ∧ ((∃ f, ofConfiguration config w = .error f
          ∧ IsComplaint (configurationPath w.folders config) (configurationOf document) f) ↔
        ¬ IsConfiguration Locale.IsNameOrLine IsAgeOrNan (configurationOf document)) from
    ⟨hends.1, hends.2, fun hordinary => hends.1.trans hordinary.isConfiguration_iff⟩
  have hmade : ofConfiguration config w
      = (ofDocument (configurationPath w.folders config) document).map
        fun s => ⟨configurationPath w.folders config, s, []⟩ := by
    rw [ofConfiguration, h]
  rw [hmade]
  cases hdocument : ofDocument (configurationPath w.folders config) document with
  | ok s =>
    have hv : IsConfiguration Locale.IsNameOrLine IsAgeOrNan (configurationOf document) :=
      (accepts_iff _).1 ((ofDocument_eq_ok_iff _ document s).1 hdocument).1
    refine ⟨iff_of_true ⟨_, rfl⟩ hv, iff_of_false ?_ (not_not_intro hv)⟩
    rintro ⟨f, ⟨⟩, -⟩
  | error f =>
    have hv : ¬ IsConfiguration Locale.IsNameOrLine IsAgeOrNan (configurationOf document) := by
      intro hv
      rw [(ofDocument_eq_ok_iff _ document _).2 ⟨(accepts_iff _).2 hv, rfl⟩] at hdocument
      cases hdocument
    refine ⟨iff_of_false ?_ hv, iff_of_true ⟨f, rfl, isComplaint_of_ofDocument hdocument⟩ hv⟩
    rintro ⟨c, ⟨⟩⟩

/-- A tree with a configuration in the file `c`. -/
def configuredFiles (configuration : Value) : Files :=
  ⟨[(["c"], .file (.document configuration) .zero)]⟩

/-- A world with that tree. -/
def configured (configuration : Value) : World :=
  ⟨⟨"/", "/", "/cache"⟩, configuredFiles configuration, [], .zero, [], []⟩

theorem readDocument_configured (configuration : Value) :
    (configured configuration).readDocument
      (configurationPath (configured configuration).folders (some "/c")) = .ok configuration := by
  have hpath : configurationPath ⟨"/", "/", "/cache"⟩ (some "/c") = "/c" := by decide +kernel
  have hread : (configuredFiles configuration).read "/" "/c" = .ok (.document configuration) := rfl
  rw [configured, hpath, World.readDocument, World.read, hread]
  rfl

/-- A configuration with a locale and an age, and with the location `m`. -/
def located (locale : String) (age : Value) : Value :=
  .dict [(.text locationKey, .text "m"), (.text localeKey, .text locale), (.text maxAgeKey, age)]

theorem isOrdinary_located : IsOrdinary (configurationOf (located "pt-BR" (.int 0))) := by
  constructor
  · rintro s ⟨⟩
    decide +kernel
  · rintro ⟨⟩

theorem ofConfiguration_ends_located :
    (configured (located "pt-BR" (.int 0))).readDocument
        (configurationPath (configured (located "pt-BR" (.int 0))).folders (some "/c"))
      = .ok (located "pt-BR" (.int 0))
    ∧ IsOrdinary (configurationOf (located "pt-BR" (.int 0)))
    ∧ (∃ c, ofConfiguration (some "/c") (configured (located "pt-BR" (.int 0))) = .ok c)
    ∧ IsConfiguration Locale.IsName IsAge (configurationOf (located "pt-BR" (.int 0))) := by
  have hread := readDocument_configured (located "pt-BR" (.int 0))
  have hmade : ∃ c, ofConfiguration (some "/c") (configured (located "pt-BR" (.int 0))) = .ok c :=
    ⟨_, rfl⟩
  exact ⟨hread, isOrdinary_located, hmade,
    ((ofConfiguration_ends hread).2.2 isOrdinary_located).1 hmade⟩

/-- A line feed behind a locale is accepted, and so is an age that compares with nothing. -/
theorem ofConfiguration_lined :
    (∃ c, ofConfiguration (some "/c") (configured (located "en\n" (.int 0))) = .ok c)
      ∧ ¬ IsConfiguration Locale.IsName IsAge (configurationOf (located "en\n" (.int 0)))
      ∧ (∃ c, ofConfiguration (some "/c") (configured (located "en" (.float .nan))) = .ok c)
      ∧ ¬ IsConfiguration Locale.IsName IsAge (configurationOf (located "en" (.float .nan))) := by
  refine ⟨⟨_, rfl⟩, fun h => ?_, ⟨_, rfl⟩, fun h => ?_⟩
  · obtain ⟨s, hs, hname⟩ := h.locale
    cases hs
    revert hname
    rw [← Locale.isLocale_iff]
    decide +kernel
  · have hage := h.age (.float .nan) rfl
    cases hage with
    | real hle => cases hle

end Catalogs

end FieldCheck
