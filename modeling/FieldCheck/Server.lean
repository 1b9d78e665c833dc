/-
FieldCheck.Server — answering requests that come line by line.

A server reads lines and writes one line for each line that is not blank:
the response to the request on it. It ends with the input, when it is
interrupted, when reading fails or a response cannot be written, and after the
line during which it was told to stop.
-/
import FieldCheck.Json.Writer
import FieldCheck.Rpc.Answer

namespace FieldCheck

/-- What can happen when a line is awaited. -/
inductive Arrival where
  /-- A line comes; the empty text is the end of the input. -/
  | line (text : String)
  /-- The server is told to stop, and then a line comes. -/
  | stop (text : String)
  /-- The server is interrupted. -/
  | interrupt
  /-- Reading fails, since the bytes of a line are no text or for another reason. -/
  | failure
  deriving DecidableEq, Repr

/-- A service with a mark that it goes on answering. -/
structure Server where
  service : Service
  running : Bool

namespace Server

/-! ## Single lines -/

/-- An action on the service of a server. -/
def onService {α : Type} (x : Action Service α) : Action Server α :=
  Action.onPart Server.service (fun s server => { server with service := s }) x

/-- The line that answers a request. -/
def answerLine (text : String) : Action Server String := do
  Rpc.logServer ("Received: " ++ Text.trimmed text)
  let response ← onService (Rpc.handle text)
  let line ← Action.ofExcept response.toJson.dump
  Rpc.logServer ("Sending: " ++ line)
  pure line

/-- What a server does at a line: it goes on, with or without an answer, or it ends. -/
inductive Turn where
  | answered (line : String)
  | skipped
  | ended
  deriving DecidableEq, Repr

/-- The end of a server by a fault. -/
def giveUp : Action Server Turn := do
  Action.log .error .server "Fatal error in main loop"
  pure .ended

/-- The turn of a server at a line. -/
def takeLine (text : String) : Action Server Turn :=
  if text.isEmpty then do
    Rpc.logServer "EOF received, shutting down"
    pure .ended
  else if (Text.trim text.toList).isEmpty then pure .skipped
  else do
    match ← Rpc.attempt (answerLine text) with
    | .ok line => pure (.answered line)
    | .error _ => giveUp

/-- Tells a server to stop. -/
def stop : Action Server Unit := do
  Action.changeState fun s => { s with running := false }
  Rpc.logServer "Stop signal received"

/-- The turn of a server at an arrival. -/
def take : Arrival → Action Server Turn
  | .line text => takeLine text
  | .stop text => do
    stop
    takeLine text
  | .interrupt => do
    Rpc.logServer "KeyboardInterrupt received, shutting down"
    pure .ended
  | .failure => giveUp

/-! ## Whole inputs -/

/-- What a server wrote, and what it left unread. -/
structure Served where
  lines : List String
  unread : List Arrival
  deriving DecidableEq, Repr

/-- The answers to what arrives, as long as the server goes on. -/
def serveWhileRunning : List Arrival → Action Server Served
  | [] => do
    let _ ← takeLine ""
    pure ⟨[], []⟩
  | a :: rest => do
    let turn ← take a
    let s ← Action.state
    let written := match turn with
      | .answered line => [line]
      | _ => []
    if turn = .ended ∨ s.running = false then pure ⟨written, rest⟩
    else do
      let more ← serveWhileRunning rest
      pure ⟨written ++ more.lines, more.unread⟩

/-- Marks a server as running. -/
def markRunning : Action Server Unit := do
  Action.changeState fun s => { s with running := true }
  Rpc.logServer "FieldValidationService JSON-RPC server started"

/-- Notes the end of a server. -/
def close : Action Server Unit := Rpc.logServer "Server stopped"

/-- Serves what arrives, from the start to the end. -/
def serve (arrivals : List Arrival) : Action Server Served := do
  markRunning
  let served ← serveWhileRunning arrivals
  close
  pure served

/-- A server with the bundled or a given configuration. -/
def start (config : Option String) (w : World) : Except Fault Server × World :=
  match Service.start config none .null w with
  | (.ok s, w) => (.ok ⟨s, false⟩, w)
  | (.error f, w) => (.error f, w)

end Server

end FieldCheck
