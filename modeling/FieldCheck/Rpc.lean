/-
FieldCheck.Rpc — the responses of remote calls.

A response names the request that it answers and brings either a result or
an error with a code and a message. Its JSON form always has the protocol
version, the name of the request, and exactly one of the two.
-/
import FieldCheck.Json

namespace FieldCheck.Rpc

/-- The version of the protocol. -/
def version : String := "2.0"

/-- Why a call brought no result. -/
inductive ErrorCode where
  | parse
  | invalidRequest
  | methodNotFound
  | invalidParams
  | internal
  deriving DecidableEq, Repr

/-- The number of an error code. -/
def ErrorCode.number : ErrorCode → Int
  | parse => -32700
  | invalidRequest => -32600
  | methodNotFound => -32601
  | invalidParams => -32602
  | internal => -32000

/-- An error in place of a result. -/
structure Failure where
  code : ErrorCode
  message : String
  deriving DecidableEq, Repr

/-- The answer to a request. -/
structure Response where
  id : Json
  content : Except Failure Json

/-- A failure as a JSON value. -/
def Failure.toJson (f : Failure) : Json :=
  .object [("code", .int f.code.number), ("message", .text f.message)]

/-- The member of a response that holds its result or its error. -/
def Response.contentMember (r : Response) : String × Json :=
  match r.content with
  | .ok result => ("result", result)
  | .error f => ("error", f.toJson)

/-- A response as a JSON value. -/
def Response.toJson (r : Response) : Json :=
  .object [("jsonrpc", .text version), ("id", r.id), r.contentMember]

/-- The response that reports a failure. -/
def Response.failed (id : Json) (code : ErrorCode) (message : String) : Response :=
  ⟨id, .error ⟨code, message⟩⟩

end FieldCheck.Rpc
