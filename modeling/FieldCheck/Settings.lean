/-
FieldCheck.Settings — the configuration of a service.

A configuration is a dictionary with the place where message catalogs live,
the locale to use when none is asked for, the age at which a catalog counts
as stale, and the level of the log. The first two are required. An empty
configuration file counts as an empty dictionary.

`Settings.ofDocument` gives the settings, or a fault that lists everything
that is wrong with the configuration.
-/
import FieldCheck.Locale
import FieldCheck.Log
import FieldCheck.Number.Quantity

namespace FieldCheck

/-- The settings that a configuration makes. -/
structure Settings where
  location : String
  defaultLocale : String
  maxAge : Quantity
  logLevel : Level

namespace Settings

/-! ## The schema -/

/-- The key of the place where catalogs live. -/
def locationKey : String := "messages_location"

/-- The key of the locale that is used when none is asked for. -/
def localeKey : String := "default_locale"

/-- The key of the age at which a catalog counts as stale. -/
def maxAgeKey : String := "messages_max_age_seconds"

/-- The key of the level of the log. -/
def logLevelKey : String := "log_level"

/-- What a configuration has to look like. -/
def schema : Schema :=
  [.kind .object,
   .property locationKey [.kind .text, .nonEmpty],
   .property localeKey [.kind .text, .pattern Locale.pattern],
   .property maxAgeKey [.kind .number, .nonNegative],
   .property logLevelKey [.kind .text, .oneOf (Level.all.map Level.name)],
   .required locationKey,
   .required localeKey]

/-! ## Reading -/

/-- The seconds after which a catalog counts as stale unless the configuration says otherwise. -/
def defaultMaxAge : Quantity := .whole 1800

/-- The text under a key. -/
def textField (key : String) (config : Value) : Option String :=
  (config.field? key).bind Value.text?

/-- The settings in a configuration that the schema accepts. -/
def ofConfiguration (config : Value) : Settings where
  location := (textField locationKey config).getD ""
  defaultLocale := (textField localeKey config).getD ""
  maxAge := ((config.field? maxAgeKey).bind Quantity.ofValue?).getD defaultMaxAge
  logLevel := ((textField logLevelKey config).bind Level.ofName?).getD .warning

/-- The configuration that a file holds. -/
def configurationOf (document : Value) : Value :=
  if document.truthy then document else .dict []

/-- The settings in the configuration file at a path. -/
def ofDocument (path : String) (document : Value) : Except Fault Settings :=
  match schema.complaints "root" (configurationOf document) with
  | .ok none => .ok (ofConfiguration (configurationOf document))
  | .ok (some details) => .error (.invalidConfiguration path details)
  | .error f => .error f

theorem ofDocument_eq_ok_iff (path : String) (document : Value) (s : Settings) :
    ofDocument path document = .ok s ↔
      schema.accepts (configurationOf document) = true
        ∧ ofConfiguration (configurationOf document) = s := by
  rw [← Schema.complaints_eq_none_iff "root"]
  unfold ofDocument
  split <;> simp_all

/-- The location of the catalog of a locale. -/
def catalogUri (s : Settings) (locale : String) : String :=
  s.location ++ (if s.location.toList.getLast? = some '/' then "" else "/") ++ locale ++ ".yaml"

/-- The locale that is meant. Any value may be asked for; what counts as
false, like nothing and the empty text, stands for the default locale. -/
def effectiveLocale (s : Settings) (asked : Value) : Value :=
  if asked.truthy then asked else .text s.defaultLocale

end Settings

end FieldCheck
