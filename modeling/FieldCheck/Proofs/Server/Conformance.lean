/-
FieldCheck.Proofs.Server.Conformance — when what is sent keeps to the standard.

A server speaks to clients in any language, and their readers need not know more
than the standard. Nearly everything in a response is written by its grammar. The
exceptions are the two places where a floating-point number can be that is not
finite: the id, which is echoed from the request, and the age of messages.

An id is not finite although the request keeps to the standard if a number in it is
beyond the range of floating-point numbers, such as 1e400: the grammar has no bound
on exponents, the reader rounds to infinity, and the writer has a word for that
which no other reader has to know.
-/
import FieldCheck.Proofs.Json.Strictness
import FieldCheck.Proofs.Server.Serving

namespace FieldCheck

open FieldCheck.Json FieldCheck.Action

namespace Rpc

variable {text : String} {s s' : Service} {w w' : World} {r : Response}

/-- A question for the age of messages is always answered with it. -/
theorem answer_age (id : Json) (params : Value) (s : Service) (w : World) :
    answer (.call id .age params) s w
      = (.ok ⟨id, .ok (Method.ageJson (s.age w.clock))⟩, s, dispatched .age w) := by
  have haccepts : Schema.Holds Method.age.schema params := trivial
  rw [answer, answerCall_of_accepted id s w haccepts]
  exact answerAccepted_of_ok id (Method.run_age params s (dispatched .age w))

/-- A response is finite if its id is, and the age in it if the request asked for that. -/
theorem isFinite_handle_iff (text : String) (s : Service) (w : World) : ∃ r s' w',
    handle text s w = (.ok r, s', w') ∧ (IsFinite r.toJson
      ↔ IsFinite (Request.ofChars text.toList).id
        ∧ ∀ id params, Request.ofChars text.toList = .call id .age params →
          ∀ age ∈ s.age w.clock, age.IsFinite) := by
  obtain ⟨r, s', w', hhandle, hid, hresult⟩ := handle_cases text s w
  refine ⟨r, s', w', hhandle, ?_⟩
  rw [isFinite_response_iff, hid]
  refine and_congr_right fun _ => ⟨fun h id params hcall => ?_, fun h j hj => ?_⟩
  · rw [handle, hcall, answer_age] at hhandle
    cases hhandle
    exact (Method.isFinite_ageJson_iff _).1 (h _ rfl)
  · obtain ⟨id, m, params, hcall, hrun⟩ := hresult j hj
    refine (Method.isFinite_run_iff hrun).2 ?_
    rintro rfl
    exact h id params hcall

end Rpc

namespace Server

theorem isText_sent (r : Rpc.Response) : Strict.IsText (sent r).toList ↔ IsFinite r.toJson :=
  isText_write_iff _

/-- The answer to a line keeps to the standard exactly if the id of the request is
finite and, where the age of messages is asked for, that is finite, too. So it does
if every number on the line and the age are in the range of floating-point numbers. -/
theorem isText_sent_iff (line : String) (service : Service) (w : World) : ∃ r service' w',
    Rpc.handle line service w = (.ok r, service', w')
      ∧ (Strict.IsText (sent r).toList
        ↔ IsFinite (Rpc.Request.ofChars line.toList).id
          ∧ ∀ id params, Rpc.Request.ofChars line.toList = .call id .age params →
            ∀ age ∈ service.age w.clock, age.IsFinite)
      ∧ ((∀ j, Json.scan line.toList = .ok j → IsFinite j) →
        (∀ age ∈ service.age w.clock, age.IsFinite) → Strict.IsText (sent r).toList) := by
  obtain ⟨r, service', w', hhandle, hfinite⟩ := Rpc.isFinite_handle_iff line service w
  have hiff := (isText_sent r).trans hfinite
  exact ⟨r, service', w', hhandle, hiff, fun hline hage =>
    hiff.2 ⟨Rpc.Request.isFinite_id hline, fun _ _ _ => hage⟩⟩

/-! ## A number beyond the range -/

/-- A request of the standard whose id is beyond the range of floating-point numbers. -/
def farLine : String :=
  "\x7b\"jsonrpc\": \"2.0\", \"method\": \"reload_messages\", \"id\": 1e400\x7d"

theorem isText_farLine : Strict.IsText farLine.toList := by
  have hnumber : Strict.Derives .value ['1', 'e', '4', '0', '0'] :=
    .number (.positive (.parts (.digits (by decide) (by decide) Strict.areDigits_nil) .absent
      (.given (.inl rfl) .absent (by decide) (by simp [Strict.AreDigits]))))
  have htext : ∀ s, Strict.Derives .value (writeText s) := fun s =>
    .text (Strict.isQuoted_writeText s)
  have hid := Strict.Derives.lastMember Strict.areGaps_blank (Strict.isQuoted_writeText "id")
    Strict.areGaps_nil Strict.areGaps_blank hnumber Strict.areGaps_nil
  have hmethod := Strict.Derives.member Strict.areGaps_blank (Strict.isQuoted_writeText "method")
    Strict.areGaps_nil Strict.areGaps_blank (htext "reload_messages") Strict.areGaps_nil hid
  have hversion := Strict.Derives.member Strict.areGaps_nil (Strict.isQuoted_writeText "jsonrpc")
    Strict.areGaps_nil Strict.areGaps_blank (htext "2.0") Strict.areGaps_nil hmethod
  have hline := (Strict.Derives.object hversion).isText
  simpa [farLine, writeText, escapeChar] using hline

theorem scan_farLine : Json.scan farLine.toList = .ok (.object [("jsonrpc", .text "2.0"),
    ("method", .text "reload_messages"), ("id", .float (.ofDecimal false 1 400))]) := by
  simp only [farLine, String.reduceToList]
  rfl

theorem ofDecimal_far : Double.ofDecimal false 1 400 = .infinite false := by decide +kernel

theorem id_farLine : (Rpc.Request.ofChars farLine.toList).id = .float (.infinite false) := by
  rw [Rpc.Request.ofChars, Json.read, scan_farLine, ofDecimal_far]
  rfl

/-- In every state, the answer to this line is one that the standard does not have. -/
theorem not_isText_far : Strict.IsText farLine.toList ∧ ∀ service w, ∃ r service' w',
    Rpc.handle farLine service w = (.ok r, service', w') ∧ ¬ Strict.IsText (sent r).toList := by
  refine ⟨isText_farLine, fun service w => ?_⟩
  obtain ⟨r, service', w', hhandle, hid, -⟩ := Rpc.handle_cases farLine service w
  refine ⟨r, service', w', hhandle, fun htext => ?_⟩
  have hfinite := ((Rpc.isFinite_response_iff r).1 ((isText_sent r).1 htext)).1
  rw [hid, id_farLine, IsFinite, everywhere_iff] at hfinite
  obtain ⟨negative, code, hcode, h⟩ := hfinite.1
  cases h

end Server

end FieldCheck
