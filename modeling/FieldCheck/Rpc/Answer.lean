/-
FieldCheck.Rpc.Answer — answering requests.

Every request has an answer. A call is answered with the result of its
method if its parameters pass the schema of the method and nothing goes
wrong; a fault is logged and answered as an internal error. An answer with
any other error leaves the service and the world outside of the log as they
were.
-/
import FieldCheck.Rpc.Request

namespace FieldCheck.Rpc

/-- Logs a record about a request. -/
def logServer {σ : Type} (message : String) : Action σ Unit := Action.log .debug .server message

/-- The answer to a request that failed by a fault. -/
def answerFault {σ : Type} (id : Json) (f : Fault) : Action σ Response := do
  logServer ("Error processing request: " ++ f.message)
  pure (Response.failed id .internal ("Internal error: " ++ f.message))

/-- The result of an action, or its fault. -/
def attempt {σ α : Type} (x : Action σ α) : Action σ (Except Fault α) := fun s w =>
  match x s w with
  | (r, s, w) => (.ok r, s, w)

/-- The answer to a call with parameters that were accepted. -/
def answerAccepted (id : Json) (m : Method) (params : Value) : Action Service Response := do
  match ← attempt (m.run params) with
  | .ok result => pure ⟨id, .ok result⟩
  | .error f => answerFault id f

/-- The answer to a call. -/
def answerCall (id : Json) (m : Method) (params : Value) : Action Service Response := do
  logServer ("Dispatching method: " ++ m.name)
  match m.schema.complaints "params" params with
  | .ok none => answerAccepted id m params
  | .ok (some details) =>
    pure (Response.failed id .invalidParams ("Invalid params: " ++ details))
  | .error f => answerFault id f

/-- The answer to a request. -/
def answer : Request → Action Service Response
  | .call id m params => answerCall id m params
  | .failed id f => pure ⟨id, .error f⟩
  | .broken id f => answerFault id f

/-- The answer to the text of a request. -/
def handle (text : String) : Action Service Response := answer (Request.ofChars text.toList)

end FieldCheck.Rpc
