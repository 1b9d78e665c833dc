/-
FieldCheck.Proofs.Service.Debounce — five minutes between reloads that nobody asked for.

A service does not reload its messages by itself within five minutes after it was
started, after it looked at their age, or after they were reloaded. `History` notes these
events as they come out of the calls. Their times are those of the calls, whatever time
the service keeps. It keeps the time of the last event (`History.isTimed`), so a reload
that it starts waits for that event (`Event.Waits`). The clock may go back between calls.
Where it does not, differences to earlier events are only greater, and all events are
waited for.

When such a reload fails, its time was noted before. Within five minutes no other one is
started, whatever calls are made (`Soon`), and all of them are answered with the messages
that are still there.

In a call the clock stands still. A batch in the course of which it moves is a batch of
the first records and then, in another world, one of the others (`batch_append`).
-/
import FieldCheck.Proofs.Number.Differences
import FieldCheck.Proofs.Service.Course
import FieldCheck.Proofs.Service.Pointwise

namespace FieldCheck

open FieldCheck.Action

namespace Double

/-! ## Five minutes -/

/-- A time is at least five minutes after another one, unless there is no difference
between them. Finite times always have one. -/
def IsLongAfter (t u : Double) : Prop := t.sub u = .nan ∨ (ofInt 300).le (t.sub u) = true

theorem isLongAfter_iff (t u : Double) :
    t.IsLongAfter u ↔ (t.sub u).ltInt Service.lookInterval = false := by
  have hunits : ∃ code bounded, ofInt 300 = finite false code bounded
      ∧ signedUnits false code = 300 * unitsPerOne := by
    refine ⟨0x4072C00000000000, by decide, by decide +kernel, by decide +kernel⟩
  obtain ⟨code, bounded, hinterval, hunits⟩ := hunits
  rw [IsLongAfter, hinterval, Service.lookInterval]
  cases t.sub u with
  | nan => exact iff_of_true (.inl rfl) rfl
  | infinite negative =>
    rw [or_iff_right (by simp)]
    cases negative <;> simp [le, ltInt]
  | finite negative code' bounded' =>
    rw [or_iff_right (by simp), le, ltInt, hunits, decide_eq_true_iff, decide_eq_false_iff_not,
      Int.not_lt]

theorem IsLongAfter.of_le {t u v : Double} (h : t.IsLongAfter v) (huv : u.le v = true) :
    t.IsLongAfter u := by
  rw [isLongAfter_iff] at h ⊢
  exact ltInt_sub_of_le (by decide) huv h

end Double

namespace Service

variable {s s' s₀ s₁ : Service} {w w' w₀ w₁ : World} {call : Call}

/-! ## Calls and their first look -/

/-- A batch is one of its first records and then one of the others. -/
theorem batch_append (first others : List Value) (descriptors fields : Value) :
    batch (.list (first ++ others)) descriptors fields
      = batch (.list first) descriptors fields >>= fun results =>
        batch (.list others) descriptors fields >>= fun more => pure (results ++ more) :=
  forEach_append _ first others

/-- A reload that was not asked for is started by the first look of the call. -/
theorem Call.Reloads.exists_looks (hs : IsConfigured s) (h : call.Reloads s w s₀ w₀)
    (hcall : call ≠ .reload) : ∃ w₁, call.Looks s w w₁ ∧ FindsStale s w₁ s₀ w₀ := by
  cases h with
  | reload => exact absurd rfl hcall
  | check h => exact ⟨w, .check _ _, h⟩
  | require h => exact ⟨w, .require _ _, h⟩
  | discover h => exact ⟨w, .discover _, h⟩
  | batch hrecords hbefore h =>
    obtain ⟨rfl, rfl, rfl⟩ := eq_nil_of_findsStale hs hbefore h
    exact ⟨_, .batch _ _ hrecords, h⟩
  | batchFile hrecords hbefore h =>
    obtain ⟨rfl, -⟩ := Records.eq_of_loadAt hrecords
    obtain ⟨rfl, rfl, rfl⟩ := eq_nil_of_findsStale hs hbefore h
    exact ⟨_, .batchFile _ _ hrecords, h⟩

theorem IsDue.isLongAfter {now : Double} (h : s.IsDue now) : now.IsLongAfter s.lastLook :=
  (Double.isLongAfter_iff _ _).2 h.2

/-- A reload that was not asked for is started only where a look is due. -/
theorem Call.Reloads.isDue (hs : IsConfigured s) (h : call.Reloads s w s₀ w₀)
    (hcall : call ≠ .reload) : s.IsDue w.clock := by
  obtain ⟨w₁, hlooks, hstale⟩ := h.exists_looks hs hcall
  rw [← hlooks.clock_eq]
  exact ⟨hstale.injected, hstale.due⟩

/-- What a look that finds stale messages logs can be written. -/
theorem FindsStale.isWritable (h : FindsStale s w s₀ w₀) :
    s.catalogs.settings.maxAge.toValue.isWritable = true := by
  obtain ⟨age, message, -, -, hmessage, -⟩ := h.stale
  rw [staleMessage, Value.display] at hmessage
  by_contra hnot
  rw [if_neg hnot] at hmessage
  cases hmessage

theorem Call.Looks.ne_reload (h : call.Looks s w w₁) : call ≠ .reload := by
  cases h <;> nofun

/-- The first look of a call finds stale messages, unless it is not due, finds them young
enough, or cannot say how old they may be. -/
theorem Call.Looks.findsStale (h : call.Looks s w w₁) (hdue : s.IsDue w.clock)
    (hwritable : s.catalogs.settings.maxAge.toValue.isWritable = true)
    (hold : ¬ ∀ age ∈ s.age w.clock, s.catalogs.settings.maxAge.isBelow age = false) :
    ∃ s₀ w₀, call.Reloads s w s₀ w₀ := by
  rw [← h.clock_eq] at hdue hold
  push Not at hold
  obtain ⟨age, hage, hbelow⟩ := hold
  have hmessage : ∃ message, staleMessage age s.catalogs.settings.maxAge = .ok message := by
    rw [staleMessage, Value.display, if_pos hwritable]
    exact ⟨_, rfl⟩
  obtain ⟨message, hmessage⟩ := hmessage
  have hbelow : s.catalogs.settings.maxAge.isBelow age = true := by simpa using hbelow
  exact ⟨_, _, h.reloads ⟨hdue.1, hdue.2, ⟨age, message, hage, hbelow, hmessage, rfl⟩, rfl⟩⟩

/-! ## Events -/

/-- What makes a service wait before it reloads its messages by itself. -/
inductive Occasion
  /-- The service was started. -/
  | start
  /-- A look found the messages young enough. -/
  | fresh
  /-- A look went on to a reload, which may have failed. -/
  | attempt
  /-- The messages were reloaded because a caller asked for that. -/
  | reload

/-- An occasion and its time. -/
structure Event where
  occasion : Occasion
  time : Double

/-- If the later event is a reload that nobody asked for, at least five minutes have
gone by since the earlier one. -/
def Event.Waits (later earlier : Event) : Prop :=
  later.occasion = .attempt → later.time.IsLongAfter earlier.time

/-- The clock has not gone back from the earlier event to the later one. -/
def Event.NotBefore (later earlier : Event) : Prop := earlier.time.le later.time = true

/-- A look is due at this time, and it finds the messages young enough. -/
structure FindsFresh (s : Service) (now : Double) : Prop where
  due : s.IsDue now
  fresh : ∀ age ∈ s.age now, s.catalogs.settings.maxAge.isBelow age = false

/-- The events in a call of a service in a world. All looks of a call are made at one
time, so one event stands for them. -/
inductive Call.Leaves (s : Service) (w : World) (call : Call) : List Event → Prop
  | attempt {s₀ : Service} {w₀ : World} (hcall : call ≠ .reload) (h : call.Reloads s w s₀ w₀) :
      Leaves s w call [⟨.attempt, w.clock⟩]
  | fresh {w₁ : World} (hlooks : call.Looks s w w₁) (h : s.FindsFresh w.clock) :
      Leaves s w call [⟨.fresh, w.clock⟩]
  | reload (hcall : call = .reload) (h : (Service.reload s w).1 = .ok ()) :
      Leaves s w call [⟨.reload, w.clock⟩]
  | nothing (hattempt : ∀ s₀ w₀, call.Reloads s w s₀ w₀ → call = .reload)
      (hfresh : ∀ w₁, call.Looks s w w₁ → ¬ s.FindsFresh w.clock)
      (hreload : call = .reload → (Service.reload s w).1 ≠ .ok ()) : Leaves s w call []

/-- The services that calls lead to, each with all events from the last one to its start.
Every call is made in a world of its own, at any time. -/
inductive History : Service → List Event → Prop
  | start {config locale : Option String} {provider : Option Messages} {w w' : World} {s : Service}
      (h : Service.start config provider (localeValue locale) w = (.ok s, w')) :
      History s [⟨.start, w.clock⟩]
  | call {s s' : Service} {past events : List Event} {w w' : World} {r : Except Fault Unit}
      (h : History s past) (call : Call) (hleaves : call.Leaves s w events)
      (hcall : call.run s w = (r, s', w')) : History s' (events ++ past)

variable {past events : List Event}

theorem Call.exists_leaves (call : Call) (s : Service) (w : World) :
    ∃ events, call.Leaves s w events := by
  by_cases hattempt : ∃ s₀ w₀, call.Reloads s w s₀ w₀ ∧ call ≠ .reload
  · obtain ⟨s₀, w₀, h, hcall⟩ := hattempt
    exact ⟨_, .attempt hcall h⟩
  by_cases hfresh : ∃ w₁, call.Looks s w w₁ ∧ s.FindsFresh w.clock
  · obtain ⟨w₁, hlooks, h⟩ := hfresh
    exact ⟨_, .fresh hlooks h⟩
  by_cases hreload : call = .reload ∧ (Service.reload s w).1 = .ok ()
  · exact ⟨_, .reload hreload.1 hreload.2⟩
  push Not at hattempt hfresh hreload
  exact ⟨_, .nothing hattempt hfresh hreload⟩

theorem History.reachable (h : History s past) : Reachable s := by
  induction h with
  | start h => exact .start h
  | call _ call _ hcall ih => exact .call ih call hcall

/-- Every service that calls lead to has a history. -/
theorem Reachable.exists_history (h : Reachable s) : ∃ past, History s past := by
  induction h with
  | start h => exact ⟨_, .start h⟩
  | @call s s' w w' r _ call hcall ih =>
    obtain ⟨past, ih⟩ := ih
    obtain ⟨events, hleaves⟩ := call.exists_leaves s w
    exact ⟨_, .call ih call hleaves hcall⟩

/-! ## The time that is kept -/

/-- The service keeps the time of the last event. A service that could never say that its
messages are too old is left out; it never reloads them by itself. -/
def IsTimed (s : Service) (past : List Event) : Prop :=
  s.catalogs.settings.maxAge.toValue.isWritable = true →
    past.head?.map Event.time = some s.lastLook

theorem isTimed_of_start {config locale : Option String} {provider : Option Messages}
    (h : Service.start config provider (localeValue locale) w = (.ok s, w')) :
    IsTimed s [⟨.start, w.clock⟩] := by
  intro _
  obtain ⟨c, -, hprepare⟩ := exists_of_start h
  have hreload := reload_ends (unready c provider (localeValue locale)) w
  rw [reload, bind_of_ok _ hprepare] at hreload
  rcases hreload with ⟨-, hnoted⟩ | ⟨⟨f, ⟨⟩⟩, -⟩
  have hnoted : s.lastLook = w.clock := hnoted
  rw [hnoted]
  rfl

/-- A call without events leaves the time as it is. -/
theorem Call.lastLook_of_nothing (hs : IsConfigured s)
    (hwritable : s.catalogs.settings.maxAge.toValue.isWritable = true)
    (hattempt : ∀ s₀ w₀, call.Reloads s w s₀ w₀ → call = .reload)
    (hfresh : ∀ w₁, call.Looks s w w₁ → ¬ s.FindsFresh w.clock)
    (hreload : call = .reload → (Service.reload s w).1 ≠ .ok ()) :
    (call.run s w).2.1.lastLook = s.lastLook := by
  by_cases hlooks : ∃ w₁, call.Looks s w w₁
  · obtain ⟨w₁, hlooks⟩ := hlooks
    by_cases hdue : s.IsDue w.clock
    · obtain ⟨s₀, w₀, h⟩ := hlooks.findsStale hdue hwritable fun hyoung =>
        hfresh w₁ hlooks ⟨hdue, hyoung⟩
      exact absurd (hattempt s₀ w₀ h) hlooks.ne_reload
    · rw [← hlooks.clock_eq] at hdue
      rw [hlooks.state_look hs, look_of_not_isDue hdue]
  · by_cases hcall : call = .reload
    · subst hcall
      rcases reload_ends s w with ⟨hok, -⟩ | ⟨-, hkept, -, -⟩
      · exact absurd hok (hreload rfl)
      · exact hkept
    · rw [Call.state_of_not_looks hcall fun w₁ h => hlooks ⟨w₁, h⟩]

theorem Call.Leaves.isTimed (hs : IsConfigured s) (htimed : IsTimed s past)
    (h : call.Leaves s w events) : IsTimed (call.run s w).2.1 (events ++ past) := by
  intro hwritable
  rw [settings_of_setup (call.keeps_run ignoresCalls_setup s w)] at hwritable
  cases h with
  | attempt hcall h =>
    obtain ⟨w₁, hlooks, hstale⟩ := h.exists_looks hs hcall
    rw [hlooks.state_look hs, lastLook_look ⟨hstale.injected, hstale.due⟩, hlooks.clock_eq]
    rfl
  | fresh hlooks h =>
    have hdue := h.due
    rw [← hlooks.clock_eq] at hdue
    rw [hlooks.state_look hs, lastLook_look hdue, hlooks.clock_eq]
    rfl
  | reload hcall h =>
    subst hcall
    rcases reload_ends s w with ⟨-, hnoted⟩ | ⟨⟨f, hfail⟩, -⟩
    · rw [Call.run, hnoted]
      rfl
    · rw [h] at hfail
      cases hfail
  | nothing hattempt hfresh hreload =>
    rw [Call.lastLook_of_nothing hs hwritable hattempt hfresh hreload]
    exact htimed hwritable

theorem History.isTimed (h : History s past) : IsTimed s past := by
  induction h with
  | start h => exact isTimed_of_start h
  | @call s s' past events w w' r h call hleaves hcall ih =>
    have hstep := hleaves.isTimed h.reachable.isConfigured ih
    rw [hcall] at hstep
    exact hstep

/-! ## Waiting -/

/-- A call that goes on to a reload by itself comes at least five minutes after the last event. -/
theorem IsTimed.waits {e : Event} (hs : IsConfigured s) (htimed : IsTimed s (e :: past))
    (hcall : call ≠ .reload) (h : call.Reloads s w s₀ w₀) : w.clock.IsLongAfter e.time := by
  obtain ⟨w₁, -, hstale⟩ := h.exists_looks hs hcall
  have hnoted : e.time = s.lastLook := Option.some.inj (htimed hstale.isWritable)
  rw [hnoted]
  exact (h.isDue hs hcall).isLongAfter

/-- There is always a last event. -/
theorem History.ne_nil (h : History s past) : past ≠ [] := by
  induction h with
  | start h => simp
  | call _ call _ _ ih => simp [ih]

/-- Along a history, every reload that nobody asked for waits for the event before it. -/
theorem History.isChain (h : History s past) : past.IsChain Event.Waits := by
  induction h with
  | start h => exact .singleton _
  | @call s s' past events w w' r h call hleaves hcall ih =>
    obtain ⟨e, rest, rfl⟩ := List.exists_cons_of_ne_nil h.ne_nil
    cases hleaves with
    | attempt hcall h' =>
      exact .cons_cons (fun _ => h.isTimed.waits h.reachable.isConfigured hcall h') ih
    | fresh hlooks h' => exact .cons_cons (fun hattempt => by cases hattempt) ih
    | reload hcall h' => exact .cons_cons (fun hattempt => by cases hattempt) ih
    | nothing hattempt hfresh hreload => exact ih

/-- Where the clock does not go back, what waits for an event waits for all that are
earlier, too. -/
theorem pairwise_waits (hchain : past.IsChain Event.Waits)
    (hclock : past.Pairwise Event.NotBefore) : past.Pairwise Event.Waits := by
  induction hchain with
  | nil => exact .nil
  | singleton e => simp
  | @cons_cons later earlier rest hwaits _ ih =>
    rw [List.pairwise_cons] at hclock
    obtain ⟨hlater, hrest⟩ := hclock
    refine .cons ?_ (ih hrest)
    intro e he hattempt
    rcases List.mem_cons.1 he with rfl | he
    · exact hwaits hattempt
    · have hbefore : e.time.le earlier.time = true := (List.pairwise_cons.1 hrest).1 e he
      exact (hwaits hattempt).of_le hbefore

/-- The configuration of a service that once went on to a reload by itself. -/
theorem History.isWritable {e : Event} (h : History s past) (he : e ∈ past)
    (hattempt : e.occasion = .attempt) :
    s.catalogs.settings.maxAge.toValue.isWritable = true := by
  induction h with
  | start h =>
    obtain rfl := List.mem_singleton.1 he
    cases hattempt
  | @call s s' past events w w' r h call hleaves hcall ih =>
    have hsame := settings_of_setup (call.keeps_run ignoresCalls_setup s w)
    rw [hcall] at hsame
    rw [hsame]
    rcases List.mem_append.1 he with he | he
    · cases hleaves with
      | attempt hasked hreloads =>
        obtain ⟨w₁, -, hstale⟩ := hreloads.exists_looks h.reachable.isConfigured hasked
        exact hstale.isWritable
      | fresh _ _ =>
        obtain rfl := List.mem_singleton.1 he
        cases hattempt
      | reload _ _ =>
        obtain rfl := List.mem_singleton.1 he
        cases hattempt
      | nothing _ _ _ => cases he
    · exact ih he

/-- Where the clock does not go back, no look is due within five minutes after any event. -/
theorem History.not_isDue {e : Event} {now : Double} (h : History s past)
    (hwritable : s.catalogs.settings.maxAge.toValue.isWritable = true)
    (hclock : past.Pairwise Event.NotBefore) (he : e ∈ past) (hsoon : ¬ now.IsLongAfter e.time) :
    ¬ s.IsDue now := by
  obtain ⟨last, rest, rfl⟩ := List.exists_cons_of_ne_nil h.ne_nil
  have hnoted : last.time = s.lastLook := Option.some.inj (h.isTimed hwritable)
  intro hdue
  have hlate : now.IsLongAfter last.time := by
    rw [hnoted]
    exact hdue.isLongAfter
  refine hsoon ?_
  rcases List.mem_cons.1 he with rfl | he
  · exact hlate
  · have hbefore : e.time.le last.time = true := (List.pairwise_cons.1 hclock).1 e he
    exact hlate.of_le hbefore

/-! ## Answers without a look -/

/-- What a demand comes to behind a look, with the messages of the service there. -/
def demanded (s : Service) (descriptors record : Value) : Traced Unit := do
  let o ← FieldCheck.check descriptors record
  if o.isOk then pure ()
  else do
    let r ← s.engine.report o
    Traced.ofExcept (refusal o r)

/-- In a world, a service answers with the messages of another one. All that the answers
change is the log, and no reload is started for them. -/
structure AnswersWith (s' : Service) (v : World) (s : Service) : Prop where
  check : ∀ ds r, check ds r s' v = ofTraced (FieldCheck.check ds r) s' v
  discover : ∀ ds, discover ds s' v = ofTraced (FieldCheck.discover ds) s' v
  require : ∀ ds r, require ds r s' v = ofTraced (s.demanded ds r) s' v
  record : ∀ ds fs r, batchOne ds fs r s' v = ofTraced (s.judged ds fs r) s' v
  report : ∀ o, report o s' v = ofTraced (s.engine.report o) s' v
  message : ∀ key, message key s' v = ofTraced (s.messages.find key) s' v
  reloads : ∀ (call : Call) s₀ w₀, call.Reloads s' v s₀ w₀ → call = .reload

theorem require_of_look {descriptors record : Value} (hlook : look s w = (.ok (), s', w')) :
    require descriptors record s w = ofTraced (s'.demanded descriptors record) s' w' := by
  rw [require, check, bind_assoc, bind_of_ok _ hlook]
  refine ofTraced_bind (fun o v => ?_) w'
  split
  · exact (congrFun (congrFun (ofTraced_ofExcept (.ok ())) s') v).symm
  · refine ofTraced_bind (fun r v => ?_) v
    rw [ofTraced_ofExcept]

/-- Where no look is due, a service answers with the messages that it has. -/
theorem answersWith_of_not_isDue {v : World} (hs : IsConfigured s') (hdue : ¬ s'.IsDue v.clock)
    (hmessages : s'.messages = s.messages) (hengine : s'.engine = s.engine) :
    s'.AnswersWith v s := by
  have hlook := look_of_not_isDue hdue
  refine ⟨fun ds r => bind_of_ok _ hlook, fun ds => bind_of_ok _ hlook, fun ds r => ?_,
    fun ds fs r => ?_, fun o => ?_, fun key => ?_, fun call s₀ w₀ hreloads => ?_⟩
  · rw [require_of_look hlook, demanded, demanded, hengine]
  · rw [batchOne_of_look hlook, judged, judged, hengine]
  · rw [report, state_bind, hengine]
  · rw [message, state_bind, hmessages]
  · by_contra hcall
    exact hdue (hreloads.isDue hs hcall)

/-! ## After a reload that failed -/

/-- The services that calls lead to from one, none of them five minutes after a time.
No reload that a caller asked for is successful on the way. -/
inductive Soon (t : Double) (s : Service) : Service → Prop
  | none : Soon t s s
  | call {s₁ s₂ : Service} {w w' : World} {r : Except Fault Unit} (h : Soon t s s₁) (call : Call)
      (hsoon : ¬ w.clock.IsLongAfter t)
      (hreload : call = .reload → (Service.reload s₁ w).1 ≠ .ok ())
      (hcall : call.run s₁ w = (r, s₂, w')) : Soon t s s₂

/-- A service whose last look was less than five minutes ago is not due for another one. -/
theorem not_isDue_of_lastLook {now : Double} (h : ¬ now.IsLongAfter s.lastLook) :
    ¬ s.IsDue now := fun hdue => h hdue.isLongAfter

/-- Nothing that matters for answers changes within five minutes after the last look. -/
theorem Soon.kept {t : Double} (hs : IsConfigured s) (h : Soon t s s') (ht : s.lastLook = t) :
    s'.lastLook = t ∧ s'.messages = s.messages ∧ s'.engine = s.engine ∧ IsConfigured s' := by
  induction h with
  | none => exact ⟨ht, rfl, rfl, hs⟩
  | @call s₁ s₂ w w' r _ call hsoon hreload hcall ih =>
    obtain ⟨hnoted, hmessages, hengine, hconf⟩ := ih
    have hconf₂ := hconf.of_setup (call.keeps_run ignoresCalls_setup s₁ w)
    have hstate : (call.run s₁ w).2.1 = s₂ := by rw [hcall]
    rw [← hstate]
    by_cases hasked : call = .reload
    · subst hasked
      rcases reload_ends s₁ w with ⟨hok, -⟩ | ⟨-, hnoted₂, hmessages₂, hengine₂⟩
      · exact absurd hok (hreload rfl)
      · exact ⟨hnoted₂.trans hnoted, hmessages₂.trans hmessages, hengine₂.trans hengine, hconf₂⟩
    · have hsame : (call.run s₁ w).2.1 = s₁ := by
        by_cases hlooks : ∃ w₁, call.Looks s₁ w w₁
        · obtain ⟨w₁, hlooks⟩ := hlooks
          rw [hlooks.state_look hconf, look_of_not_isDue]
          refine not_isDue_of_lastLook ?_
          rw [hnoted, hlooks.clock_eq]
          exact hsoon
        · exact Call.state_of_not_looks hasked fun w₁ h => hlooks ⟨w₁, h⟩
      rw [hsame]
      exact ⟨hnoted, hmessages, hengine, hconf⟩

/-- A reload that nobody asked for and that fails leaves the texts, and has its time noted. -/
theorem Call.Reloads.failed (hs : IsConfigured s) (h : call.Reloads s w s₀ w₀)
    (hcall : call ≠ .reload) {f : Fault} (hfail : Service.reload s₀ w₀ = (.error f, s₁, w₁)) :
    s₁.lastLook = w.clock ∧ s₁.messages = s.messages ∧ s₁.engine = s.engine
      ∧ IsConfigured s₁ := by
  obtain ⟨v, hlooks, hstale⟩ := h.exists_looks hs hcall
  have hconf := hs.of_setup (call.keeps_run ignoresCalls_setup s w)
  have hends := reload_ends s₀ w₀
  rw [hfail] at hends
  rw [h.run_of_error hs hfail] at hconf
  rcases hends with ⟨⟨⟩, -⟩ | ⟨-, hnoted, hmessages, hengine⟩
  obtain ⟨rfl, -⟩ := hstale.start
  refine ⟨?_, hmessages, hengine, hconf⟩
  rw [hnoted, ← hlooks.clock_eq]
  rfl

/-- Reloads that nobody asked for wait. In a history each of them is at least five minutes
later than the event before it, and than all earlier events if the clock never goes back;
within five minutes after one of them, the service then answers with the messages that it
has. In a batch none is started for a record behind another one, as the clock stands still.
When one fails, so does its call, and within five minutes everything is answered with the
messages from before the call, wherever the clock goes meanwhile. -/
theorem reloads_debounced (h : History s past) :
    past.IsChain Event.Waits
      ∧ (past.Pairwise Event.NotBefore → past.Pairwise Event.Waits
        ∧ ∀ e ∈ past, e.occasion = .attempt →
          ∀ v : World, ¬ v.clock.IsLongAfter e.time → s.AnswersWith v s)
      ∧ (∀ {before : List Value} {descriptors fields : Value} {results : List BatchResult}
          {w w' w₀ : World} {s' s₀ : Service},
        batchList before descriptors fields s w = (.ok results, s', w') →
          FindsStale s' w' s₀ w₀ → before = [])
      ∧ ∀ {call : Call} {s₀ s₁ : Service} {w w₀ w₁ : World} {f : Fault},
        call ≠ .reload → call.Reloads s w s₀ w₀ → reload s₀ w₀ = (.error f, s₁, w₁) →
          call.run s w = (.error f, s₁, w₁)
            ∧ ∀ (s₂ : Service) (v : World),
              Soon w.clock s₁ s₂ → ¬ v.clock.IsLongAfter w.clock → s₂.AnswersWith v s := by
  have hs := h.reachable.isConfigured
  refine ⟨h.isChain, fun hclock => ⟨pairwise_waits h.isChain hclock, fun e he hattempt v hv => ?_⟩,
    fun hbefore hstale => (eq_nil_of_findsStale hs hbefore hstale).1, ?_⟩
  · exact answersWith_of_not_isDue hs (h.not_isDue (h.isWritable he hattempt) hclock he hv) rfl rfl
  · intro call s₀ s₁ w w₀ w₁ f hcall hreloads hfail
    refine ⟨hreloads.run_of_error hs hfail, fun s₂ v hsoon hv => ?_⟩
    obtain ⟨hnoted, hmessages, hengine, hconf⟩ := hreloads.failed hs hcall hfail
    obtain ⟨hnoted₂, hmessages₂, hengine₂, hconf₂⟩ := hsoon.kept hconf hnoted
    have hdue : ¬ s₂.IsDue v.clock := not_isDue_of_lastLook (by rw [hnoted₂]; exact hv)
    exact answersWith_of_not_isDue hconf₂ hdue (hmessages₂.trans hmessages)
      (hengine₂.trans hengine)

theorem history_shelved : History shelved [⟨.start, .zero⟩] := by
  obtain ⟨w', h⟩ := start_shelved
  exact .start h

/-- A check that goes on to a reload which fails, and what the service answers then. -/
theorem reloads_debounced_shelved : History shelved [⟨.start, .zero⟩] ∧ ∃ s₁ w₁,
    (Call.check (.list []) .null).run shelved (shelf (.list [.null]) later)
        = (.error (.catalogNotMapping "list"), s₁, w₁)
      ∧ History s₁ [⟨.attempt, later⟩, ⟨.start, .zero⟩]
      ∧ (Double.ofInt 300).le (later.sub .zero) = true
      ∧ s₁.AnswersWith (shelf (.list [.null]) later) shelved
      ∧ s₁.AnswersWith (shelf (.list [.null]) later) s₁ := by
  have hfail : ∃ w₁, reload (shelved.looked later) staleShelf
      = (.error (.catalogNotMapping "list"), (shelved.looked later).noted later, w₁) := ⟨_, rfl⟩
  obtain ⟨w₁, hfail⟩ := hfail
  have hcall : (Call.check (.list []) .null).Reloads shelved (shelf (.list [.null]) later)
      (shelved.looked later) staleShelf := .check findsStale_shelved
  have hsoon : ¬ later.IsLongAfter later := by
    rw [Double.isLongAfter_iff]
    decide +kernel
  obtain ⟨-, -, -, hfailing⟩ := reloads_debounced history_shelved
  obtain ⟨hrun, hkept⟩ := hfailing (by simp) hcall hfail
  have hkept : ((shelved.looked later).noted later).AnswersWith (shelf (.list [.null]) later)
      shelved := hkept _ (shelf (.list [.null]) later) .none hsoon
  have hhistory : History ((shelved.looked later).noted later)
      [⟨.attempt, later⟩, ⟨.start, .zero⟩] :=
    .call history_shelved _ (.attempt (by simp) hcall) hrun
  obtain ⟨hchain, hforward, -⟩ := reloads_debounced hhistory
  have hwaits : later.IsLongAfter .zero := (List.isChain_cons_cons.1 hchain).1 rfl
  have hwaits := hwaits.resolve_left (Double.sub_ne_nan (by decide) (by decide))
  have hbefore : Double.zero.le later = true := by decide +kernel
  obtain ⟨-, hpresent⟩ := hforward (List.pairwise_pair.2 hbefore)
  exact ⟨history_shelved, (shelved.looked later).noted later, w₁, hrun, hhistory, hwaits, hkept,
    hpresent _ (List.mem_cons_self ..) rfl (shelf (.list [.null]) later) hsoon⟩

end Service

end FieldCheck
