/-
FieldCheck.Service — checks with the messages of a catalog.

A service has a source of messages: one that it was given, or a catalog that
it loads when it starts and again when it is stale. Before a check it looks
whether the catalog is stale, but not more often than every five minutes. A
service with a source of its own never loads anything.

The source is held twice. The service looks messages up in its own, and its
engine makes reports with another one; a new source is followed by a new engine.

A reload that fails leaves the messages as they are. The time of the last
look is noted before a reload, so a failing reload is not tried again at
once.
-/
import FieldCheck.Catalogs
import FieldCheck.Discovery
import FieldCheck.Engine

namespace FieldCheck

/-- A source of messages with the catalogs behind it. -/
structure Service where
  catalogs : Catalogs
  locale : Value
  injected : Option Messages
  messages : Messages
  engine : Engine
  lastLook : Double

namespace Service

/-! ## Loading messages -/

/-- An action on the catalogs of a service. -/
def onCatalogs {α : Type} (x : Action Catalogs α) : Action Service α :=
  Action.onPart Service.catalogs (fun c s => { s with catalogs := c }) x

/-- The messages of the catalog of the locale. -/
def loadMessages : Action Service Messages := do
  let s ← Action.state
  let document ← onCatalogs (Catalogs.load s.locale)
  let messages ← Action.ofExcept (Messages.ofCatalog document)
  Action.log .debug .service ("Loaded message catalog for locale " ++ s.locale.quoted)
  pure messages

/-- Makes a new engine for the messages in use. -/
def renewEngine : Action Service Unit :=
  Action.changeState fun s => { s with engine := ⟨s.messages⟩ }

/-- Takes the messages to use, makes a new engine for them, and notes the time. -/
def useMessages (m : Messages) : Action Service Unit := do
  Action.changeState fun s => { s with messages := m }
  renewEngine
  let w ← Action.world
  Action.changeState fun s => { s with lastLook := w.clock }

/-- Takes the given messages, or loads those of the catalog. -/
def prepare : Action Service Unit := do
  let s ← Action.state
  match s.injected with
  | some m => useMessages m
  | none => do
    let m ← loadMessages
    useMessages m

/-- Loads the messages again. -/
def reload : Action Service Unit := do
  prepare
  let s ← Action.state
  Action.log .info .service ("Message catalog reloaded for locale " ++ s.locale.quoted)

/-! ## Starting -/

/-- The service before it has any messages. -/
def unready (c : Catalogs) (provider : Option Messages) (locale : Value) : Service where
  catalogs := c
  locale := c.settings.effectiveLocale locale
  injected := provider
  messages := Messages.standard
  engine := ⟨Messages.standard⟩
  lastLook := .zero

/-- A service with a configuration, a source of messages if there is one, and
a locale, where nothing stands for the default one. -/
def start (config : Option String) (provider : Option Messages) (locale : Value)
    (w : World) : Except Fault Service × World :=
  match Catalogs.ofConfiguration config w with
  | .error f => (.error f, w)
  | .ok c =>
    match prepare (unready c provider locale) w with
    | (.ok _, s, w) => (.ok s, w)
    | (.error f, _, w) => (.error f, w)

/-! ## Staleness -/

/-- The least number of seconds between two looks at the age of the catalog. -/
def lookInterval : Int := 300

/-- How old the messages are; messages that were given have no age. Those of
a catalog have one, since its locale was a key when it was loaded. -/
def age (s : Service) (now : Double) : Option Double :=
  match s.injected with
  | some _ => none
  | none => s.catalogs.age s.locale now

/-- What is logged about a stale catalog. -/
def staleMessage (age : Double) (maxAge : Quantity) : Except Fault String :=
  (Value.display maxAge.toValue).map fun limit =>
    "Message catalog stale (" ++ String.ofList age.roundedChars ++ "s > " ++ limit
      ++ "s), reloading"

/-- Loads the messages again if they are older than the configuration allows. -/
def reloadIfOld : Action Service Unit := do
  let s ← Action.state
  let w ← Action.world
  let maxAge := s.catalogs.settings.maxAge
  match s.age w.clock with
  | none => pure ()
  | some age =>
    if maxAge.isBelow age then do
      let message ← Action.ofExcept (staleMessage age maxAge)
      Action.log .info .service message
      reload
    else pure ()

/-- It is too early to look at the age of the catalog again. -/
def isTooEarly (s : Service) (now : Double) : Bool := (now.sub s.lastLook).ltInt lookInterval

/-- Looks at the age of the catalog, if it is time to. -/
def look : Action Service Unit := do
  let s ← Action.state
  let w ← Action.world
  if s.injected.isSome || s.isTooEarly w.clock then pure ()
  else do
    Action.changeState fun s => { s with lastLook := w.clock }
    reloadIfOld

/-! ## Checks and reports -/

/-- Checks a list of descriptors against a record. -/
def check (descriptors record : Value) : Action Service Outcome := do
  look
  Action.ofTraced (FieldCheck.check descriptors record)

/-- The report on an outcome. -/
def report (o : Outcome) : Action Service Report := do
  let s ← Action.state
  Action.ofTraced (s.engine.report o)

/-- The report on labels that should be texts. -/
def reportValues (labels : List Value) : Action Service Report := do
  let s ← Action.state
  Action.ofTraced (s.engine.reportValues labels)

/-- The fault that a report is. -/
def refusal (o : Outcome) : Report → Except Fault Unit
  | .ok => .ok ()
  | .error text => .error (.fieldsRequired o.labels text)

/-- Checks a record, and fails with a report if it lacks something. -/
def require (descriptors record : Value) : Action Service Unit := do
  let o ← check descriptors record
  if o.isOk then pure ()
  else do
    let r ← report o
    Action.ofExcept (refusal o r)

/-- The message under a key. -/
def message (key : Value) : Action Service Value := do
  let s ← Action.state
  Action.ofTraced (s.messages.find key)

/-- The findings on a list of descriptors. -/
def discover (descriptors : Value) : Action Service (List Finding) := do
  look
  Action.ofTraced (FieldCheck.discover descriptors)

end Service

end FieldCheck
