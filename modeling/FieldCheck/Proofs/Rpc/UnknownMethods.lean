/-
FieldCheck.Proofs.Rpc.UnknownMethods — requests for methods that do not exist.

A request that passes all stages in front of the name is looked up under what its
method is, and that may be any value. A value that can be a key is in the table or
it is not. An array or an object cannot be a key, so that looking it up is a fault,
and the answer is that of an internal error. The other way to that answer is a
number of too many digits anywhere in the text: then nothing of the request is known,
not even its id.

* `AsksUnknown.handle_eq` — such a request comes to the stage of the name.
* `unknown_method_answered` — the answer in each of the three cases. The service
  stays as it was in all of them, and so does the world outside of its log.
* `not_unknown_method_told` — the code for unknown methods is not the answer to all.
-/
import FieldCheck.Proofs.Rpc.Classification

namespace FieldCheck.Rpc

open FieldCheck.Action

/-- The request has a method, and this is not the name of one. Nothing in front of
that is wrong with it. -/
structure AsksUnknown (text : String) (v : Json) : Prop where
  version : given "jsonrpc" text = some (.text "2.0")
  params : ∀ p, given "params" text = some p → ∃ members, p = .object members
  method : given "method" text = some v
  truthy : ¬ v.IsFalsy
  unknown : ∀ m : Method, v ≠ .text m.name

variable {text : String} {v : Json}

/-! ## Requests -/

/-- An array or an object cannot be looked up. -/
theorem ofMethod_of_filled (id : Json) (params : Value) (h : v.IsFilled) :
    Request.ofMethod id v.toValue params = .broken id (.unhashable v.toValue.kind) := by
  cases v with
  | array items => rfl
  | object members => rfl
  | _ => cases h

/-- Such a request comes to the stage of the name. -/
theorem AsksUnknown.handle_eq (h : AsksUnknown text v) (s : Service) (w : World) :
    handle text s w
      = answer (Request.ofMethod (idOf text) v.toValue (paramsOf text)) s w := by
  have hversion : ¬ Stage.version.Fails text s w := fun hfails => hfails h.version
  have hmethod : ¬ Stage.method.Fails text s w := fun hfails => h.truthy (hfails v h.method)
  have hparams : ¬ Stage.params.Fails text s w := by
    intro ⟨p, hp, hother⟩
    obtain ⟨members, hmembers⟩ := h.params p hp
    exact hother members hmembers
  obtain ⟨u, hu, -, hhandle⟩ := handle_of_method hversion hmethod
  obtain rfl : v = u := Option.some.inj (h.method.symm.trans hu)
  rw [hhandle, ofParams_of_object _ _ hparams]

/-- A text that cannot be read for its digits is no request with an id. -/
theorem handle_of_digits {digits : Nat} (h : Json.scan text.toList = .error (.digits digits)) :
    handle text = answerFault .null (.tooLongToRead digits) := by
  rw [handle, Request.ofChars, Json.read, h]
  rfl

/-! ## Answers -/

/-- A method that cannot be looked up is answered as an internal error. -/
theorem AsksUnknown.handle_of_filled (h : AsksUnknown text v) (hfilled : v.IsFilled) (s : Service)
    (w : World) : handle text s w = (.ok (Response.failed (idOf text) .internal
      ("Internal error: " ++ ("unhashable type: '" ++ v.toValue.kind ++ "'"))), s,
      w.logged [brokenRecord (.unhashable v.toValue.kind)]) := by
  rw [h.handle_eq, ofMethod_of_filled _ _ hfilled, answer, answerFault_eq]
  rfl

/-- A request for a method that does not exist is told so, under its id, if the method
is no array and no object; else, and if the text has a number that is too long, the
answer is an internal error. -/
theorem unknown_method_answered (text : String) (s : Service) (w : World) :
    (∀ v, AsksUnknown text v → ¬ v.IsFilled → ∃ r, handle text s w = (.ok r, s, w)
        ∧ r.toJson = errorObject (idOf text) (-32601) ("Method not found: " ++ v.toValue.shown))
    ∧ (∀ v, AsksUnknown text v → v.IsFilled → ∃ r,
        handle text s w = (.ok r, s, w.logged [brokenRecord (.unhashable v.toValue.kind)])
        ∧ r.toJson = errorObject (idOf text) (-32000)
          ("Internal error: " ++ ("unhashable type: '" ++ v.toValue.kind ++ "'")))
    ∧ (∀ digits, Json.scan text.toList = .error (.digits digits) → ∃ r,
        handle text s w = (.ok r, s, w.logged [brokenRecord (.tooLongToRead digits)])
        ∧ Reports r .null (-32000)) := by
  refine ⟨fun v h hkey => ?_, fun v h hfilled => ?_, fun digits hdigits => ?_⟩
  · rw [h.handle_eq, ofMethod_of_unknown _ _ h.truthy hkey h.unknown]
    exact ⟨_, rfl, rfl⟩
  · exact ⟨_, h.handle_of_filled hfilled s w, rfl⟩
  · rw [handle_of_digits hdigits, answerFault_eq]
    exact ⟨_, rfl, reports_failed .null .internal _⟩

/-- A request whose method is a number. -/
def asksForNumber : String := "\x7b\"jsonrpc\": \"2.0\", \"id\": 7, \"method\": 12\x7d"

/-- A request whose method is an array, with the name of a method in it. -/
def asksForArray : String :=
  "\x7b\"jsonrpc\": \"2.0\", \"id\": 7, \"method\": [\"batch_check\"]\x7d"

/-- The characters of a request for a method that does not exist, with a number of too
many digits. -/
def lengthyChars : List Char :=
  "\x7b\"jsonrpc\": \"2.0\", \"id\": 7, \"method\": \"other\", \"params\": \x7b\"a\": ".toList
    ++ (List.replicate (Decimal.digitLimit + 1) '1' ++ ['\x7d', '\x7d'])

def asksAtLength : String := String.ofList lengthyChars

theorem asksUnknown_of_scan (hscan : Json.scan text.toList
      = .ok (.object [("jsonrpc", .text "2.0"), ("id", .int 7), ("method", v)]))
    (htruthy : ¬ v.IsFalsy) (hunknown : ∀ m : Method, v ≠ .text m.name) :
    AsksUnknown text v ∧ idOf text = .int 7 := by
  have hmembers := membersOf_of_scan hscan
  refine ⟨⟨?_, ?_, ?_, htruthy, hunknown⟩, ?_⟩
  · rw [given, hmembers]
    rfl
  · intro p hp
    rw [given, hmembers] at hp
    cases hp
  · rw [given, hmembers]
    rfl
  · rw [idOf, given, hmembers]
    rfl

theorem asksUnknown_number :
    AsksUnknown asksForNumber (.int 12) ∧ idOf asksForNumber = .int 7 := by
  refine asksUnknown_of_scan ?_ nofun nofun
  simp only [asksForNumber, String.reduceToList]
  rfl

theorem asksUnknown_array :
    AsksUnknown asksForArray (.array [.text "batch_check"]) ∧ idOf asksForArray = .int 7 := by
  refine asksUnknown_of_scan ?_ nofun nofun
  simp only [asksForArray, String.reduceToList]
  rfl

theorem scan_asksAtLength : Json.scan asksAtLength.toList = .error (.digits 4301) := by
  have hrefusal : (match Json.scan asksAtLength.toList with
      | .error r => some r
      | .ok _ => none) = some (.digits 4301) := by
    rw [asksAtLength, String.toList_ofList]
    decide +kernel
  split at hrefusal
  · rename_i r hscan
    rw [hscan, Option.some.inj hrefusal]
  · cases hrefusal

theorem unknown_method_answered_each :
    (∃ r, handle asksForNumber bare nowhere = (.ok r, bare, nowhere)
        ∧ r.toJson = errorObject (.int 7) (-32601) "Method not found: 12")
    ∧ (∃ r w, handle asksForArray bare nowhere = (.ok r, bare, w)
        ∧ r.toJson = errorObject (.int 7) (-32000) "Internal error: unhashable type: 'list'")
    ∧ ∃ r w, handle asksAtLength bare nowhere = (.ok r, bare, w) ∧ Reports r .null (-32000) := by
  refine ⟨?_, ?_, ?_⟩
  · obtain ⟨hasks, hid⟩ := asksUnknown_number
    obtain ⟨r, hhandle, hr⟩ := (unknown_method_answered asksForNumber bare nowhere).1 _ hasks nofun
    exact ⟨r, hhandle, by rw [hr, hid]; rfl⟩
  · obtain ⟨hasks, hid⟩ := asksUnknown_array
    obtain ⟨r, hhandle, hr⟩ :=
      (unknown_method_answered asksForArray bare nowhere).2.1 _ hasks (List.cons_ne_nil _ _)
    exact ⟨r, _, hhandle, by rw [hr, hid]; rfl⟩
  · obtain ⟨r, hhandle, hr⟩ :=
      (unknown_method_answered asksAtLength bare nowhere).2.2 _ scan_asksAtLength
    exact ⟨r, _, hhandle, hr⟩

/-- Not every request for a method that does not exist is told so. -/
theorem not_unknown_method_told : ¬ ∀ text v s w, AsksUnknown text v →
    ∃ r s' w', handle text s w = (.ok r, s', w') ∧ Reports r (idOf text) (-32601) := by
  intro htold
  obtain ⟨hasks, -⟩ := asksUnknown_array
  obtain ⟨r, s', w', hhandle, message, hr⟩ := htold _ _ bare nowhere hasks
  rw [hasks.handle_of_filled (List.cons_ne_nil _ _)] at hhandle
  simp only [Prod.mk.injEq, Except.ok.injEq] at hhandle
  rw [← hhandle.1] at hr
  simp [Response.toJson, Response.contentMember, Response.failed, Failure.toJson, errorObject,
    ErrorCode.number] at hr

end FieldCheck.Rpc
