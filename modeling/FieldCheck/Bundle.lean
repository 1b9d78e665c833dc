/-
FieldCheck.Bundle — the configuration and the catalogs that come along.

A service for which no configuration is named uses this one: catalogs in a
folder beside it, English unless another locale is asked for, half an hour
until a catalog is stale, and a log of warnings.
-/
import FieldCheck.Messages
import FieldCheck.Settings
import FieldCheck.World

namespace FieldCheck.Bundle

/-- The name of the configuration file. -/
def configurationName : String := "local-config.yaml"

/-- The configuration. -/
def configuration : Value :=
  .dict [(.text Settings.locationKey, .text "catalogs"),
    (.text Settings.localeKey, .text "en"),
    (.text Settings.maxAgeKey, .int 1800),
    (.text Settings.logLevelKey, .text "WARNING")]

/-- The catalog with one message under the report key. -/
def catalog (message : String) : Value :=
  .dict [(.text Messages.warningsSection,
    .dict [(.text Messages.reportKey, .text message)])]

/-- The files, with their names in the folder. -/
def documents : List (List String × Value) :=
  [([configurationName], configuration),
   (["catalogs", "en.yaml"], catalog "The following fields are required or invalid: "),
   (["catalogs", "de.yaml"],
     catalog "Die folgenden Felder sind erforderlich oder ungültig: ")]

/-- Puts the files into a folder. -/
def install (folder : String) (files : Files) : Files :=
  documents.foldl (fun t d =>
    t.putFile (FilePath.collapsed (FilePath.steps folder) ++ d.1) (.document d.2) .zero) files

/-- The schema accepts the configuration. -/
theorem schema_accepts_configuration : Settings.schema.accepts configuration = true := by
  decide +kernel

end FieldCheck.Bundle
