/-
FieldCheck.Proofs.Server.Refusals — a request that is refused leaves no trace.

A response reports one of five error codes. Four of them are refusals: what was
asked for was not tried. The fifth one says that a method was run and failed.

A refusal comes from two places. Either the request is none, and then no method
is at hand; or its parameters are refused by the schema of the method, and then
the method is not run. All that is done in either case is to log
(`handle_of_refusal`). A fault is answered with the fifth code wherever it
arises, so no fault of a method can come out as a refusal.

So a line with a refused request can be left out. `transcript` is what a server
does at lines, while the surroundings may do anything in between that does not
depend on the log; where they do nothing, it is what the server does that serves the
lines (`serveWhileRunning_eq_written`). `Prunes` says that one transcript is another one without some
of its refusals, and the transcript of the lines that are left is just that
(`transcript_of_prunes`, by induction on it).
-/
import FieldCheck.Proofs.Server.Serving

namespace FieldCheck

open FieldCheck.Json FieldCheck.Action

namespace Rpc

/-! ## Refused requests -/

/-- The codes of the responses to requests that are refused. -/
def refusalCodes : List Int := [-32700, -32600, -32601, -32602]

/-- The response says that the request was refused. -/
def Response.Refuses (r : Response) : Prop := ∃ id code, code ∈ refusalCodes ∧ Reports r id code

theorem Response.Refuses.exists_failure {r : Response} (h : r.Refuses) :
    ∃ f, r.content = .error f ∧ f.code ≠ .internal := by
  obtain ⟨id, code, hcode, message, hr⟩ := h
  rw [toJson, errorObject, contentMember] at hr
  cases hcontent : r.content with
  | ok result => simp [hcontent] at hr
  | error f =>
    refine ⟨f, rfl, fun hinternal => ?_⟩
    simp only [hcontent, Failure.toJson, hinternal, Json.object.injEq, List.cons.injEq,
      Prod.mk.injEq, Json.int.injEq, true_and, and_true] at hr
    obtain ⟨-, -, rfl, -⟩ := hr
    exact absurd hcode (by decide)

variable {s s' : Service} {w w' : World} {r : Response}

theorem not_refuses_answerFault {id : Json} {f : Fault}
    (h : answerFault id f s w = (.ok r, s', w')) : ¬ r.Refuses := by
  intro hr
  obtain ⟨failure, hcontent, hcode⟩ := hr.exists_failure
  cases h
  cases hcontent
  exact hcode rfl

/-- A call whose method was run is not refused. -/
theorem not_refuses_answerAccepted {id : Json} {m : Method} {params : Value}
    (h : answerAccepted id m params s w = (.ok r, s', w')) : ¬ r.Refuses := by
  intro hr
  obtain ⟨failure, hcontent, hcode⟩ := hr.exists_failure
  rcases hrun : m.run params s w with ⟨f | result, s₁, w₁⟩
  · obtain ⟨message, w₂, hanswer⟩ := answerAccepted_of_error id hrun
    rw [hanswer] at h
    cases h
    cases hcontent
    exact hcode rfl
  · rw [answerAccepted_of_ok id hrun] at h
    cases h
    cases hcontent

theorem answer_of_refusal {q : Request} (h : answer q s w = (.ok r, s', w')) (hr : r.Refuses) :
    s' = s ∧ ∃ log, w' = { w with log := log } := by
  cases q with
  | failed id f =>
    cases h
    exact ⟨rfl, _, rfl⟩
  | broken id f => exact absurd hr (not_refuses_answerFault h)
  | call id m params =>
    rw [answer, answerCall, logServer, log_bind] at h
    cases hcomplaints : m.schema.complaints "params" params with
    | error f =>
      rw [hcomplaints] at h
      exact absurd hr (not_refuses_answerFault h)
    | ok complaints =>
      cases complaints with
      | some details =>
        rw [hcomplaints] at h
        cases h
        exact ⟨rfl, _, rfl⟩
      | none =>
        rw [hcomplaints] at h
        exact absurd hr (not_refuses_answerAccepted h)

/-- Handling a refused request changes nothing but the log. -/
theorem handle_of_refusal {text : String} (h : handle text s w = (.ok r, s', w'))
    (hr : r.Refuses) : s' = s ∧ ∃ log, w' = { w with log := log } :=
  answer_of_refusal h hr

end Rpc

namespace Server

/-! ## Lines and surroundings -/

/-- Something that the surroundings do to the world: the clock goes on, a file is
written, a location gives another reply. It is the same whatever was logged. -/
structure Change where
  apply : World → World
  ignoresLog : ∀ w past, apply { w with log := past } = { apply w with log := past }

/-- What comes next: a line, or a change of the world. -/
inductive Event where
  | line (text : String)
  | change (c : Change)

/-- The turn of a server at what comes next. A change passes it by. -/
def meet : Event → Action Server Turn
  | .line l => takeLine l
  | .change c => do
    Action.changeWorld c.apply
    pure .skipped

/-- The turn of a server at what comes next, together with what that is. -/
def entry (e : Event) : Action Server (Event × Turn) := do
  let turn ← meet e
  pure (e, turn)

/-- All that comes, each with the turn of the server at it. -/
def transcript (events : List Event) : Action Server (List (Event × Turn)) :=
  Action.forEach entry events

/-- The lines that were written at some of what came. -/
def written : List (Event × Turn) → List String
  | [] => []
  | (_, .answered line) :: rest => line :: written rest
  | _ :: rest => written rest

theorem ignoresLog_answerLine (line : String) : IgnoresLog (answerLine line) :=
  (Rpc.ignoresLog_logServer _).bind fun _ =>
    ((Rpc.ignoresLog_handle line).onPart _ _).bind fun _ => (ignoresLog_ofExcept _).bind fun _ =>
      (Rpc.ignoresLog_logServer _).bind fun _ => ignoresLog_pure _

theorem ignoresLog_takeLine (line : String) : IgnoresLog (takeLine line) := by
  unfold takeLine
  split
  · exact (Rpc.ignoresLog_logServer _).bind fun _ => ignoresLog_pure _
  split
  · exact ignoresLog_pure _
  refine (Rpc.IgnoresLog.attempt (ignoresLog_answerLine line)).bind fun r => ?_
  cases r with
  | ok line => exact ignoresLog_pure _
  | error f => exact (ignoresLog_log _ _ _).bind fun _ => ignoresLog_pure _

theorem ignoresLog_transcript (events : List Event) : IgnoresLog (transcript events) := by
  refine .forEach (fun e => ?_) events
  refine IgnoresLog.bind ?_ fun _ => ignoresLog_pure _
  cases e with
  | line text => exact ignoresLog_takeLine text
  | change c => exact (ignoresLog_changeWorld c.ignoresLog).bind fun _ => ignoresLog_pure _

/-! ## Lines with refused requests -/

/-- What was written at the line is the response to a refused request. -/
def Turn.Refuses (turn : Turn) : Prop :=
  ∃ line id code message, turn = .answered line ∧ code ∈ Rpc.refusalCodes
    ∧ Json.read line.toList = .ok (Rpc.errorObject id code message)

theorem refuses_answered_iff {r : Rpc.Response} (hr : IsSendable r.toJson) :
    (Turn.answered (sent r)).Refuses ↔ r.Refuses := by
  have hread : Json.read (sent r).toList = .ok r.toJson := Json.read_of_isSendable hr
  constructor
  · rintro ⟨line, id, code, message, hline, hcode, hobject⟩
    obtain rfl : sent r = line := by simpa using hline
    rw [hread, Except.ok.injEq] at hobject
    exact ⟨id, code, hcode, message, hobject⟩
  · rintro ⟨id, code, hcode, message, hobject⟩
    exact ⟨sent r, id, code, message, rfl, hcode, by rw [hread, hobject]⟩

/-- What a server does at a line, which is one of three things. -/
theorem takeLine_cases (line : String) (server : Server) (w : World) :
    (line = "" ∧ ∃ log, takeLine line server w = (.ok .ended, server, { w with log := log }))
    ∨ (line ≠ "" ∧ takeLine line server w = (.ok .skipped, server, w))
    ∨ ∃ r s' w' log, Rpc.handle line server.service w = (.ok r, s', w') ∧ IsSendable r.toJson
      ∧ takeLine line server w
        = (.ok (.answered (sent r)), ⟨s', server.running⟩, { w' with log := log }) := by
  by_cases hne : line = ""
  · subst hne
    exact .inl ⟨rfl, _, rfl⟩
  by_cases hblank : IsBlank line
  · exact .inr (.inl ⟨hne, takeLine_of_isBlank hne hblank server w⟩)
  · obtain ⟨r, s', w', hhandle, hr⟩ := Rpc.handle_isSendable line server.service w
    obtain ⟨log, hturn⟩ := takeLine_of_request hblank hhandle hr server.running w.log
    exact .inr (.inr ⟨r, s', w', log, hhandle, hr, hturn⟩)

/-- A line with a refused request changes nothing but the log. -/
theorem takeLine_of_refusal {line : String} {turn : Turn} {server server' : Server} {w w' : World}
    (h : takeLine line server w = (.ok turn, server', w')) (hturn : turn.Refuses) :
    server' = server ∧ ∃ log, w' = { w with log := log } := by
  rcases takeLine_cases line server w with ⟨-, _, h'⟩ | ⟨-, h'⟩ | ⟨r, s', v, log, hhandle, hr, h'⟩
  · cases h.symm.trans h'
    obtain ⟨_, _, _, _, hended, -⟩ := hturn
    cases hended
  · cases h.symm.trans h'
    obtain ⟨_, _, _, _, hskipped, -⟩ := hturn
    cases hskipped
  · cases h.symm.trans h'
    obtain ⟨rfl, past, rfl⟩ := Rpc.handle_of_refusal hhandle ((refuses_answered_iff hr).1 hturn)
    exact ⟨rfl, _, rfl⟩

/-! ## Transcripts -/

theorem entry_of_takeLine {line : String} {turn : Turn} {server server' : Server} {w w' : World}
    (h : takeLine line server w = (.ok turn, server', w')) :
    entry (.line line) server w = (.ok (.line line, turn), server', w') := by
  rw [entry, meet, bind_of_ok _ h]
  rfl

theorem exists_entry (e : Event) (server : Server) (w : World) :
    ∃ turn server' w', entry e server w = (.ok (e, turn), server', w') := by
  cases e with
  | line text =>
    rcases takeLine_cases text server w with ⟨-, _, h⟩ | ⟨-, h⟩ | ⟨_, _, _, _, -, -, h⟩
    · exact ⟨_, _, _, entry_of_takeLine h⟩
    · exact ⟨_, _, _, entry_of_takeLine h⟩
    · exact ⟨_, _, _, entry_of_takeLine h⟩
  | change c => exact ⟨_, _, _, rfl⟩

theorem takeLine_of_entry {line : String} {turn : Turn} {server server' : Server} {w w' : World}
    (h : entry (.line line) server w = (.ok (.line line, turn), server', w')) :
    takeLine line server w = (.ok turn, server', w') := by
  rw [entry, meet] at h
  rcases hturn : takeLine line server w with ⟨f | t, server₁, w₁⟩
  · rw [bind_of_error _ hturn] at h
    cases h
  · rw [bind_of_ok _ hturn] at h
    cases h
    rfl

/-- Everything that comes stands in the transcript once, and in its place. -/
theorem map_fst_of_transcript {events : List Event} {xs : List (Event × Turn)}
    {server server' : Server} {w w' : World}
    (h : transcript events server w = (.ok xs, server', w')) : xs.map Prod.fst = events := by
  have hentry : ∀ e, Yields (fun x => x.1 = e) (entry e) :=
    fun e => .behind _ fun _ => yields_pure rfl
  have hall : Yields (fun xs => xs.map Prod.fst = events) (transcript events) := by
    clear h
    induction events with
    | nil => exact yields_pure rfl
    | cons e rest ih =>
      exact (hentry e).bind fun x hx => ih.bind fun others ho => yields_pure (by simp [hx, ho])
  exact hall server w xs (by rw [h])

theorem transcript_cons {e : Event} {rest : List Event} {x : Event × Turn}
    {xs : List (Event × Turn)} {server server₁ server' : Server} {w w₁ w' : World}
    (hfirst : entry e server w = (.ok x, server₁, w₁))
    (hrest : transcript rest server₁ w₁ = (.ok xs, server', w')) :
    transcript (e :: rest) server w = (.ok (x :: xs), server', w') := by
  rw [transcript] at hrest
  rw [transcript, forEach, bind_of_ok _ hfirst, bind_of_ok _ hrest]
  rfl

theorem exists_transcript (events : List Event) (server : Server) (w : World) :
    ∃ xs server' w', transcript events server w = (.ok xs, server', w') := by
  induction events generalizing server w with
  | nil => exact ⟨[], server, w, rfl⟩
  | cons e rest ih =>
    obtain ⟨turn, server₁, w₁, hfirst⟩ := exists_entry e server w
    obtain ⟨xs, server', w', hrest⟩ := ih server₁ w₁
    exact ⟨(e, turn) :: xs, server', w', transcript_cons hfirst hrest⟩

/-- Where nothing happens between the lines, a server that serves them writes
what stands in the transcript. -/
theorem serveWhileRunning_eq_written {lines : List String} (hlines : "" ∉ lines)
    (service : Service) (w : World) : ∃ xs service' w' log,
      transcript (lines.map .line) ⟨service, true⟩ w = (.ok xs, ⟨service', true⟩, w')
      ∧ serveWhileRunning (lines.map .line) ⟨service, true⟩ w
        = (.ok ⟨written xs, []⟩, ⟨service', true⟩, { w' with log := log }) := by
  induction lines generalizing service w with
  | nil => exact ⟨[], service, w, _, rfl, rfl⟩
  | cons line rest ih =>
    rw [List.mem_cons, not_or] at hlines
    obtain ⟨hne, hlines⟩ := hlines
    rcases takeLine_cases line ⟨service, true⟩ w with
      ⟨hempty, -⟩ | ⟨-, hturn⟩ | ⟨r, service₁, w₁, log₁, -, -, hturn⟩
    · exact absurd hempty.symm hne
    · obtain ⟨xs, service', w', log, hxs, hserve⟩ := ih hlines service w
      exact ⟨_, service', w', log, transcript_cons (entry_of_takeLine hturn) hxs,
        serveWhileRunning_of_skipped (a := .line line) hturn hserve⟩
    · obtain ⟨xs, service', w', log, hxs, hserve⟩ := ih hlines service₁ { w₁ with log := log₁ }
      exact ⟨_, service', w', log, transcript_cons (entry_of_takeLine hturn) hxs,
        serveWhileRunning_of_answered (a := .line line) hturn hserve⟩

/-! ## Leaving lines out -/

/-- The second transcript is the first one without some of the lines at which
requests were refused. -/
inductive Prunes : List (Event × Turn) → List (Event × Turn) → Prop
  | nil : Prunes [] []
  | keep {xs ys : List (Event × Turn)} (x : Event × Turn) (h : Prunes xs ys) :
      Prunes (x :: xs) (x :: ys)
  | drop {xs ys : List (Event × Turn)} {line : String} {turn : Turn} (hturn : turn.Refuses)
      (h : Prunes xs ys) : Prunes ((.line line, turn) :: xs) ys

theorem Prunes.refl (xs : List (Event × Turn)) : Prunes xs xs := by
  induction xs with
  | nil => exact .nil
  | cons x xs ih => exact .keep x ih

/-- A transcript begins with the turn at what came first. -/
theorem of_transcript_cons {events : List Event} {x : Event × Turn} {xs : List (Event × Turn)}
    {server server' : Server} {w w' : World}
    (h : transcript events server w = (.ok (x :: xs), server', w')) :
    ∃ rest server₁ w₁, entry x.1 server w = (.ok x, server₁, w₁)
      ∧ transcript rest server₁ w₁ = (.ok xs, server', w') := by
  cases events with
  | nil => cases h
  | cons e rest =>
    obtain ⟨turn, server₁, w₁, hfirst⟩ := exists_entry e server w
    obtain ⟨ys, server₂, w₂, hrest⟩ := exists_transcript rest server₁ w₁
    rw [transcript_cons hfirst hrest] at h
    cases h
    exact ⟨rest, server₁, w₁, hfirst, hrest⟩

theorem transcript_of_prunes {xs ys : List (Event × Turn)} (hprunes : Prunes xs ys)
    {events : List Event} {server server' : Server} {w w' : World}
    (h : transcript events server w = (.ok xs, server', w')) :
    ∃ log, transcript (ys.map Prod.fst) server w = (.ok ys, server', { w' with log := log }) := by
  induction hprunes generalizing events server w with
  | nil =>
    obtain rfl : [] = events := map_fst_of_transcript h
    cases h
    exact ⟨_, rfl⟩
  | keep x _ ih =>
    obtain ⟨rest, server₁, w₁, hfirst, hrest⟩ := of_transcript_cons h
    obtain ⟨log, hlog⟩ := ih hrest
    exact ⟨log, transcript_cons hfirst hlog⟩
  | @drop xs ys line turn hturn _ ih =>
    obtain ⟨rest, server₁, w₁, hfirst, hrest⟩ := of_transcript_cons h
    obtain ⟨rfl, log, rfl⟩ := takeLine_of_refusal (takeLine_of_entry hfirst) hturn
    obtain ⟨log₂, hrest₂⟩ := ih hrest
    -- What the refused request logged is there in one run only, and has no influence.
    exact (ignoresLog_transcript _).of_eq hrest₂ w.log

/-- Every request has a response, and one that refuses it leaves the service and
all of the world but the log as they were. So in everything that comes to a
server, with whatever happens around it, any of the lines with refused requests
can be left out: the turns at all the other lines and the end are the same. -/
theorem refusals_leave_no_trace :
    (∀ (text : String) (s : Service) (w : World), ∃ r s' w',
      Rpc.handle text s w = (.ok r, s', w')
        ∧ (r.Refuses → s' = s ∧ ∃ log, w' = { w with log := log }))
    ∧ ∀ (events : List Event) (server : Server) (w : World), ∃ xs server' w',
      transcript events server w = (.ok xs, server', w') ∧ xs.map Prod.fst = events
        ∧ ∀ ys, Prunes xs ys → ∃ log,
          transcript (ys.map Prod.fst) server w = (.ok ys, server', { w' with log := log }) := by
  constructor
  · intro text s w
    obtain ⟨r, s', w', h, -⟩ := Rpc.handle_isSendable text s w
    exact ⟨r, s', w', h, Rpc.handle_of_refusal h⟩
  · intro events server w
    obtain ⟨xs, server', w', h⟩ := exists_transcript events server w
    exact ⟨xs, server', w', h, map_fst_of_transcript h,
      fun ys hprunes => transcript_of_prunes hprunes h⟩

/-- The clock goes on by a second. -/
def oneSecond : Change where
  apply w := { w with clock := w.clock.add (.ofInt 1) }
  ignoresLog _ _ := rfl

/-- A request that is refused, then a second, then a line of blanks. -/
def refusedThenBlank : List Event := [.line Rpc.twiceWrong, .change oneSecond, .line "\n"]

theorem takeLine_twiceWrong : ∃ turn log, takeLine Rpc.twiceWrong ⟨Rpc.bare, true⟩ Rpc.nowhere
    = (.ok turn, ⟨Rpc.bare, true⟩, { Rpc.nowhere with log := log }) ∧ turn.Refuses := by
  obtain ⟨r, hhandle, hreports⟩ : ∃ r,
      Rpc.handle Rpc.twiceWrong Rpc.bare Rpc.nowhere = (.ok r, Rpc.bare, Rpc.nowhere)
        ∧ Rpc.Reports r (.int 7) (-32602) := by
    rw [Rpc.handle_of_scan Rpc.scan_twiceWrong]
    exact ⟨_, rfl, Rpc.reports_failed _ .invalidParams _⟩
  have hsendable : IsSendable r.toJson := by
    obtain ⟨r', _, _, h, hr⟩ := Rpc.handle_isSendable Rpc.twiceWrong Rpc.bare Rpc.nowhere
    cases hhandle.symm.trans h
    exact hr
  obtain ⟨log, hturn⟩ := takeLine_of_request (by decide) hhandle hsendable true []
  exact ⟨_, log, hturn, (refuses_answered_iff hsendable).2 ⟨_, _, by decide, hreports⟩⟩

theorem refusals_leave_no_trace_twiceWrong : ∃ xs server' w',
    transcript refusedThenBlank ⟨Rpc.bare, true⟩ Rpc.nowhere = (.ok xs, server', w')
      ∧ ∃ ys, Prunes xs ys ∧ ys.map Prod.fst = [.change oneSecond, .line "\n"]
        ∧ ∃ log, transcript (ys.map Prod.fst) ⟨Rpc.bare, true⟩ Rpc.nowhere
          = (.ok ys, server', { w' with log := log }) := by
  obtain ⟨turn, past, hturn, hrefuses⟩ := takeLine_twiceWrong
  obtain ⟨ys, server', w', hrest⟩ := exists_transcript [.change oneSecond, .line "\n"]
    ⟨Rpc.bare, true⟩ { Rpc.nowhere with log := past }
  have hdrop : Prunes ((.line Rpc.twiceWrong, turn) :: ys) ys := .drop hrefuses (.refl ys)
  obtain ⟨xs, server₂, w₂, hall, -, hprune⟩ :=
    refusals_leave_no_trace.2 refusedThenBlank ⟨Rpc.bare, true⟩ Rpc.nowhere
  cases (transcript_cons (entry_of_takeLine hturn) hrest).symm.trans hall
  exact ⟨_, server', w', hall, ys, hdrop, map_fst_of_transcript hrest, hprune ys hdrop⟩

end Server

end FieldCheck
