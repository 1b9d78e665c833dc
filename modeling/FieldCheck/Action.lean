/-
FieldCheck.Action — computations with a state in the world.

An action on a state has a result or a fault, and in both cases leaves a
state and a world behind. Sequencing stops at the first fault and keeps what
was done until then; nothing is undone.

The laws say what a sequence does, one case for a first part that has a
result (`bind_of_ok`) and one for a first part that fails (`bind_of_error`).
-/
import FieldCheck.World

namespace FieldCheck

/-- A computation on a state in the world. -/
def Action (σ α : Type) : Type := σ → World → Except Fault α × σ × World

namespace Action

variable {σ τ α β : Type}

/-! ## Sequencing -/

/-- A result, with nothing done. -/
def done (a : α) : Action σ α := fun s w => (.ok a, s, w)

/-- A fault, with nothing done. -/
def fail (f : Fault) : Action σ α := fun s w => (.error f, s, w)

/-- Goes on with the result, if there is one. -/
def andThen (x : Action σ α) (f : α → Action σ β) : Action σ β := fun s w =>
  match x s w with
  | (.ok a, s, w) => f a s w
  | (.error e, s, w) => (.error e, s, w)

instance : Monad (Action σ) where
  pure := done
  bind := andThen

theorem bind_of_ok {x : Action σ α} {s s' : σ} {w w' : World} {a : α} (f : α → Action σ β)
    (h : x s w = (.ok a, s', w')) : (x >>= f) s w = f a s' w' := by
  show andThen x f s w = _
  simp [andThen, h]

theorem bind_of_error {x : Action σ α} {s s' : σ} {w w' : World} {e : Fault}
    (f : α → Action σ β) (h : x s w = (.error e, s', w')) :
    (x >>= f) s w = (.error e, s', w') := by
  show andThen x f s w = _
  simp [andThen, h]

/-! ## Single steps -/

/-- The state. -/
def state : Action σ σ := fun s w => (.ok s, s, w)

/-- The world. -/
def world : Action σ World := fun s w => (.ok w, s, w)

/-- Changes the state. -/
def changeState (f : σ → σ) : Action σ Unit := fun s w => (.ok (), f s, w)

/-- Changes the world. -/
def changeWorld (f : World → World) : Action σ Unit := fun s w => (.ok (), s, f w)

/-- Logs a record. -/
def log (level : Level) (channel : Channel) (message : String) : Action σ Unit :=
  changeWorld fun w => w.logged [⟨level, channel, message⟩]

/-- A result or a fault that needs neither state nor world. -/
def ofExcept (x : Except Fault α) : Action σ α := fun s w => (x, s, w)

/-- A computation that does nothing but log. -/
def ofTraced (t : Traced α) : Action σ α := fun s w => (t.result, s, w.logged t.log)

/-- An action on a part of the state. -/
def onPart (get : σ → τ) (put : τ → σ → σ) (x : Action τ α) : Action σ α := fun s w =>
  match x (get s) w with
  | (r, t, w) => (r, put t s, w)

/-! ## Several steps -/

/-- Does something for each element and collects the results. -/
def forEach (f : α → Action σ β) : List α → Action σ (List β)
  | [] => pure []
  | a :: rest => do
    let first ← f a
    let others ← forEach f rest
    pure (first :: others)

end Action

end FieldCheck
