/-
FieldCheck.Rpc.Method — the methods that can be called.

Each method has a name, a schema for its parameters if it takes any, and an
action on a service that brings its result.
-/
import FieldCheck.Schema
import FieldCheck.Service.Batch

namespace FieldCheck.Rpc

/-- A method that can be called. -/
inductive Method where
  | check
  | require
  | discover
  | batch
  | batchFile
  | reload
  | age
  deriving DecidableEq, Repr

namespace Method

/-! ## Names -/

/-- The name of a method. -/
def name : Method → String
  | check => "check_required_fields"
  | require => "require_fields"
  | discover => "discover_fields"
  | batch => "batch_check"
  | batchFile => "batch_file_check"
  | reload => "reload_messages"
  | age => "get_messages_age"

/-- All methods. -/
def all : List Method := [check, require, discover, batch, batchFile, reload, age]

/-- The method with a name. -/
def ofName? (s : String) : Option Method := all.find? fun m => m.name = s

@[simp] theorem ofName?_name (m : Method) : ofName? m.name = some m := by cases m <;> rfl

/-! ## Parameters -/

/-- The parameter with the descriptors. -/
def descriptorsKey : String := "descriptors"

/-- The parameter with the record. -/
def dataKey : String := "data"

/-- The parameter with the records. -/
def recordsKey : String := "records"

/-- The parameter with the fields that name a record. -/
def idFieldsKey : String := "id_fields"

/-- The parameter with the location of the records. -/
def fileUriKey : String := "file_uri"

/-- A list of descriptors and groups of descriptors. -/
def descriptorsSchema : Schema :=
  [.kind .array, .items [.either [.kind .text] [.kind .array, .items [.kind .text]]]]

/-- A list of texts. -/
def textsSchema : Schema := [.kind .array, .items [.kind .text]]

/-- What the parameters of a method have to look like. The last two methods take none. -/
def schema : Method → Schema
  | check | require =>
    [.kind .object, .property descriptorsKey descriptorsSchema, .required descriptorsKey,
     .required dataKey]
  | discover =>
    [.kind .object, .property descriptorsKey descriptorsSchema, .required descriptorsKey]
  | batch =>
    [.kind .object, .property recordsKey [.kind .array],
     .property descriptorsKey descriptorsSchema, .property idFieldsKey textsSchema,
     .required recordsKey, .required descriptorsKey, .required idFieldsKey]
  | batchFile =>
    [.kind .object, .property fileUriKey [.kind .text, .nonEmpty],
     .property descriptorsKey descriptorsSchema, .property idFieldsKey textsSchema,
     .required fileUriKey, .required descriptorsKey, .required idFieldsKey]
  | reload | age => []

/-- The value of a parameter. -/
def param (key : String) (params : Value) : Value := (params.field? key).getD .null

/-! ## Results -/

/-- What is answered after a reload. -/
def reloaded : Json :=
  .object [("status", .text "ok"), ("message", .text "Messages reloaded successfully")]

/-- The age of messages as a JSON value. -/
def ageJson : Option Double → Json
  | some x => .object [("messages_age", .float x)]
  | none => .object [("messages_age", .null)]

/-- Runs a method with parameters that its schema accepts. -/
def run (m : Method) (params : Value) : Action Service Json :=
  let descriptors := param descriptorsKey params
  match m with
  | check => do
    let o ← Service.check descriptors (param dataKey params)
    pure o.toJson
  | require => do
    let o ← Service.check descriptors (param dataKey params)
    let r ← Service.report o
    pure r.toJson
  | discover => do
    let fs ← Service.discover descriptors
    pure (findingsJson fs)
  | batch => do
    let rs ← Service.batch (param recordsKey params) descriptors (param idFieldsKey params)
    pure (Service.resultsJson rs)
  | batchFile => do
    let rs ← Service.batchFile (param fileUriKey params) descriptors (param idFieldsKey params)
    pure (Service.resultsJson rs)
  | reload => do
    Service.reload
    pure reloaded
  | age => do
    let s ← Action.state
    let w ← Action.world
    pure (ageJson (s.age w.clock))

end Method

end FieldCheck.Rpc
