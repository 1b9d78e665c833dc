/-
FieldCheck.Catalogs — finding, fetching and keeping message catalogs.

Catalogs live at a location of the configuration, one file for each locale.
A location without a scheme is a path beside the configuration file, one
with the scheme `file` a path of its own. Catalogs from the network are kept
in a folder, under a name that is made of the digest of their location, and
are fetched again when the kept one is older than the configuration allows.

The store remembers, for each locale, when its catalog was last loaded. A
load that fails leaves these times as they are. Locales are texts as a rule,
but any value may be asked for: its catalog has the name that the value is
shown as, and its time is kept if the value can be a key.
-/
import FieldCheck.Action
import FieldCheck.Bundle
import FieldCheck.Sha256
import FieldCheck.Text.Percent
import FieldCheck.Uri

namespace FieldCheck

/-- The catalogs of a configuration: the path of its file, its settings, and
the times at which the catalogs of locales were last loaded. -/
structure Catalogs where
  path : String
  settings : Settings
  loadedAt : List (Value × Double)

namespace Catalogs

/-! ## The configuration -/

/-- The path of the configuration file: the given one, or that of the bundle. -/
def configurationPath (folders : Folders) : Option String → String
  | some p =>
    if p.isEmpty then FilePath.join folders.bundle Bundle.configurationName
    else FilePath.normalized folders.work p
  | none => FilePath.join folders.bundle Bundle.configurationName

/-- The catalogs of a configuration file, none of which is loaded yet. -/
def ofConfiguration (config : Option String) (w : World) : Except Fault Catalogs :=
  let path := configurationPath w.folders config
  match w.readDocument path with
  | .error f => .error f
  | .ok document => (Settings.ofDocument path document).map fun s => ⟨path, s, []⟩

/-! ## Kept catalogs -/

/-- The path under which a fetched catalog is kept. -/
def keptPath (folders : Folders) (uri : String) : String :=
  FilePath.join folders.cache ("messages_" ++ Sha256.hexDigest uri.toUTF8.toList ++ ".yaml")

/-- A kept catalog is there and not too old. Nothing is said about what it is. -/
def isFresh (maxAge : Quantity) (w : World) (path : String) : Bool :=
  match w.files.lookup path with
  | .ok e => maxAge.isAtLeast (w.clock.sub e.modified)
  | .error _ => false

/-- The time limit of a request for a catalog, in seconds. -/
def fetchTimeout : Nat := 10

/-- Asks the network for a catalog. -/
def fetch (uri : String) : Action Catalogs Content := do
  let w ← Action.world
  Action.changeWorld fun w => w.called ⟨uri, fetchTimeout, false, false, none⟩
  match w.reply uri with
  | .unreachable m => Action.fail (.fetchFailed uri m)
  | .refused m => Action.fail (.fetchFailed uri m)
  | .content whole _ => pure whole

/-- The files with a catalog kept at a path. The folder is made if it is not there. -/
def keep (folder path : String) (content : Content) (now : Double) (t : Files) :
    Except Fault Files :=
  let place := FilePath.collapsed (FilePath.steps path)
  match t.lookup folder with
  | .ok (.file ..) => .error (.alreadyExists folder)
  | .error .throughFile => .error (.notFolder folder)
  | .error .longName => .error (.nameTooLong folder)
  | _ =>
    match t.lookup path with
    | .ok (.folder _) => .error (.isFolder path)
    | _ => .ok (t.putFile place content now)

/-- Keeps a fetched catalog. -/
def store (path : String) (content : Content) : Action Catalogs Unit := do
  let w ← Action.world
  match keep w.folders.cache path content w.clock w.files with
  | .error f => Action.fail f
  | .ok t => Action.changeWorld fun w => { w with files := t }

/-! ## Loading -/

/-- The document in a file. -/
def readFile (path : String) : Action Catalogs Value := do
  let w ← Action.world
  Action.ofExcept (w.readDocument path)

/-- The catalog at a location on the network. -/
def loadRemote (uri : String) : Action Catalogs Value := do
  let w ← Action.world
  let c ← Action.state
  let path := keptPath w.folders uri
  if isFresh c.settings.maxAge w path then
    Action.log .debug .catalogs ("Using cached message catalog for " ++ uri)
    readFile path
  else
    let content ← fetch uri
    store path content
    Action.ofExcept content.asDocument

/-- The catalog at a location. -/
def loadFrom (uri : String) : Action Catalogs Value := do
  let c ← Action.state
  let u ← Action.ofExcept (Uri.parse uri)
  if u.scheme = "" then readFile (FilePath.join (FilePath.folderOf c.path) uri)
  else if u.scheme = "file" then readFile (String.ofList (Text.Percent.decode u.path.toList))
  else if u.scheme = "http" ∨ u.scheme = "https" then loadRemote uri
  else Action.fail (.catalogScheme u.scheme uri)

/-- The times with a new one for a locale. -/
def setTime (locale : Value) (time : Double) (times : List (Value × Double)) :
    List (Value × Double) :=
  (locale, time) :: times.filter fun t => !Value.sameKey locale t.1

/-- The catalog of a locale, or of the default one. -/
def load (asked : Value) : Action Catalogs Value := do
  let c ← Action.state
  let locale := c.settings.effectiveLocale asked
  let name ← Action.ofExcept locale.display
  let document ← loadFrom (c.settings.catalogUri name)
  let key ← Action.ofExcept locale.asKey
  let w ← Action.world
  Action.changeState fun c => { c with loadedAt := setTime key w.clock c.loadedAt }
  pure (if document.truthy then document else .dict [])

/-! ## Ages -/

/-- When the catalog of a locale was last loaded. -/
def time? (c : Catalogs) (locale : Value) : Option Double :=
  (c.loadedAt.find? fun t => Value.sameKey locale t.1).map (·.2)

/-- How long ago the catalog of a locale was loaded, if it ever was. -/
def age (c : Catalogs) (asked : Value) (now : Double) : Option Double :=
  (c.time? (c.settings.effectiveLocale asked)).map now.sub

/-- The age, unless the locale is a value that cannot be a key. -/
def ageOrFault (c : Catalogs) (asked : Value) (now : Double) : Except Fault (Option Double) :=
  (c.settings.effectiveLocale asked).asKey.map fun _ => c.age asked now

theorem time?_setTime_self (c : Catalogs) (locale : String) (t : Double) :
    time? { c with loadedAt := setTime (.text locale) t c.loadedAt } (.text locale) = some t := by
  simp [time?, setTime, Value.sameKey, Value.sameAtom]

end Catalogs

end FieldCheck
