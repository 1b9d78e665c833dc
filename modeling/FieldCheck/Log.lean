/-
FieldCheck.Log — log records, and computations that write them.

A `Traced` computation has a result or a fault, and in both cases the log
records that it wrote until then. Sequencing stops at the first fault and
keeps the records in order; `log_bind_ok` and `log_bind_error` say so.
-/
import FieldCheck.Fault

namespace FieldCheck

/-! ## Records -/

/-- How serious a log record is. -/
inductive Level where
  | debug
  | info
  | warning
  | error
  | critical
  deriving DecidableEq, Repr

namespace Level

/-- The name of a level. -/
def name : Level → String
  | debug => "DEBUG"
  | info => "INFO"
  | warning => "WARNING"
  | error => "ERROR"
  | critical => "CRITICAL"

/-- The rank of a level; a more serious one has a higher rank. -/
def rank : Level → Nat
  | debug => 10
  | info => 20
  | warning => 30
  | error => 40
  | critical => 50

/-- All levels. -/
def all : List Level := [debug, info, warning, error, critical]

/-- The level with a name. -/
def ofName? (s : String) : Option Level := all.find? fun l => l.name = s

@[simp] theorem ofName?_name (l : Level) : ofName? l.name = some l := by cases l <;> rfl

end Level

/-- The part of the program that a log record comes from. -/
inductive Channel where
  | descriptors
  | engine
  | messages
  | catalogs
  | service
  | server
  deriving DecidableEq, Repr

/-- The name of a channel. -/
def Channel.name : Channel → String
  | descriptors => "required_fields.field_spec"
  | engine => "required_fields.rule_engine"
  | messages => "required_fields.messages"
  | catalogs => "required_fields.config_loader"
  | service => "required_fields.api"
  | server => "required_fields.jsonrpc_server"

/-- One entry of the log. -/
structure LogRecord where
  level : Level
  channel : Channel
  message : String
  deriving DecidableEq, Repr

/-- A log record on one line. -/
def LogRecord.line (r : LogRecord) : String :=
  r.level.name ++ " " ++ r.channel.name ++ ": " ++ r.message

/-! ## Traced computations -/

/-- A result or a fault, with the log records written on the way. -/
structure Traced (α : Type) where
  result : Except Fault α
  log : List LogRecord

namespace Traced

variable {α β : Type}

/-- A result with nothing logged. -/
def done (a : α) : Traced α := ⟨.ok a, []⟩

/-- A fault with nothing logged. -/
def fail (f : Fault) : Traced α := ⟨.error f, []⟩

/-- What was computed without logging. -/
def ofExcept (x : Except Fault α) : Traced α := ⟨x, []⟩

/-- Logs one record. -/
def write (r : LogRecord) : Traced Unit := ⟨.ok (), [r]⟩

/-- Logs some records. -/
def writeAll (rs : List LogRecord) : Traced Unit := ⟨.ok (), rs⟩

/-- Goes on with the result, if there is one. -/
def andThen (x : Traced α) (f : α → Traced β) : Traced β :=
  match x.result with
  | .error e => ⟨.error e, x.log⟩
  | .ok a => ⟨(f a).result, x.log ++ (f a).log⟩

instance : Monad Traced where
  pure := done
  bind := andThen

@[simp] theorem result_pure (a : α) : (pure a : Traced α).result = .ok a := rfl

@[simp] theorem log_pure (a : α) : (pure a : Traced α).log = [] := rfl

theorem result_bind_ok {x : Traced α} {a : α} (f : α → Traced β) (h : x.result = .ok a) :
    (x >>= f).result = (f a).result := by
  show (andThen x f).result = _
  simp [andThen, h]

theorem log_bind_ok {x : Traced α} {a : α} (f : α → Traced β) (h : x.result = .ok a) :
    (x >>= f).log = x.log ++ (f a).log := by
  show (andThen x f).log = _
  simp [andThen, h]

theorem result_bind_error {x : Traced α} {e : Fault} (f : α → Traced β)
    (h : x.result = .error e) : (x >>= f).result = .error e := by
  show (andThen x f).result = _
  simp [andThen, h]

/-- A sequence has a result only if both parts have one. -/
theorem of_result_bind {x : Traced α} {f : α → Traced β} {b : β}
    (h : (x >>= f).result = .ok b) : ∃ a, x.result = .ok a ∧ (f a).result = .ok b := by
  cases hx : x.result with
  | error e => simp [result_bind_error f hx] at h
  | ok a => exact ⟨a, rfl, by rwa [result_bind_ok f hx] at h⟩

theorem log_bind_error {x : Traced α} {e : Fault} (f : α → Traced β)
    (h : x.result = .error e) : (x >>= f).log = x.log := by
  show (andThen x f).log = _
  simp [andThen, h]

/-- Sequences have the same result if their parts have, whatever they log. -/
theorem result_bind_congr {x y : Traced α} {f g : α → Traced β} (hxy : x.result = y.result)
    (hfg : ∀ a, y.result = .ok a → (f a).result = (g a).result) :
    (x >>= f).result = (y >>= g).result := by
  cases hy : y.result with
  | error e => rw [result_bind_error f (hxy.trans hy), result_bind_error g hy]
  | ok a => rw [result_bind_ok f (hxy.trans hy), result_bind_ok g hy, hfg a hy]

/-- What comes after a step matters only for the result that the step has. -/
theorem bind_congr {x : Traced α} {f g : α → Traced β} (h : ∀ a, x.result = .ok a → f a = g a) :
    x >>= f = x >>= g := by
  show andThen x f = andThen x g
  rw [andThen, andThen]
  cases hx : x.result with
  | error e => rfl
  | ok a => simp only [h a hx]

end Traced

end FieldCheck
