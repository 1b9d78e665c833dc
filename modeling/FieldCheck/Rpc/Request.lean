/-
FieldCheck.Rpc.Request — understanding a request.

A request goes through stages, and the first one that it does not pass
decides the answer: it has to be JSON, an object of the right protocol
version, with a method, with parameters in an object, and the method has to
be known. Nothing of this needs a service. What a request turns out to be is
a call, a failure, or a fault that is answered as an internal error.
-/
import FieldCheck.Json.Reader
import FieldCheck.Rpc
import FieldCheck.Rpc.Method
import FieldCheck.Value.Display

namespace FieldCheck.Rpc

/-- What a request turns out to be. -/
inductive Request where
  /-- A call of a method with parameters. -/
  | call (id : Json) (method : Method) (params : Value)
  /-- A request that is answered with an error. -/
  | failed (id : Json) (failure : Failure)
  /-- A request that could not be understood because of a fault. -/
  | broken (id : Json) (fault : Fault)

namespace Request

/-! ## Stages -/

/-- A member of a request; a missing one counts as null. -/
def memberOf (name : String) (members : List (String × Json)) : Json :=
  (Json.member name members).getD .null

/-- The method stage: a name that is no key is a fault, an unknown one a failure. -/
def ofMethod (id : Json) (method : Value) (params : Value) : Request :=
  match method.asKey with
  | .error f => .broken id f
  | .ok _ =>
    match method.text?.bind Method.ofName? with
    | some m => .call id m params
    | none => .failed id ⟨.methodNotFound, "Method not found: " ++ method.shown⟩

/-- The parameter stage. Parameters may be missing, and else have to be an object. -/
def ofParams (id : Json) (method : Value) (params : Json) : Request :=
  match params with
  | .object members => ofMethod id method (.dict (Json.toEntries members))
  | other =>
    .failed id ⟨.invalidParams, "Params must be an object, got " ++ other.toValue.kind⟩

/-- The stages of an object of the right version. -/
def ofVersioned (members : List (String × Json)) : Request :=
  let id := memberOf "id" members
  let method := (memberOf "method" members).toValue
  if method.truthy then
    ofParams id method ((Json.member "params" members).getD (.object []))
  else .failed id ⟨.invalidRequest, "Missing 'method' field"⟩

/-- The value is the text of the protocol version. -/
def isVersion : Json → Bool
  | .text s => s = version
  | _ => false

/-- The stages of a JSON value. -/
def ofJson : Json → Request
  | .object members =>
    let given := memberOf "jsonrpc" members
    if isVersion given then ofVersioned members
    else .failed .null
      ⟨.invalidRequest, "Invalid JSON-RPC version: " ++ given.toValue.shown⟩
  | _ => .failed .null ⟨.invalidRequest, "Request must be a JSON object"⟩

/-- What a text turns out to be. A number that is too long is a fault. -/
def ofChars (cs : List Char) : Request :=
  match Json.read cs with
  | .ok j => ofJson j
  | .error (.notJson m) => .failed .null ⟨.parse, "Parse error: " ++ m⟩
  | .error f => .broken .null f

end Request

end FieldCheck.Rpc
