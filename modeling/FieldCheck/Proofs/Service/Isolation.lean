/-
FieldCheck.Proofs.Service.Isolation — given messages keep a service apart from the world.

A service that was given its messages never needs a catalog. Its looks stop at once,
its reloads take the same messages again, and its age is none. What is left of every
`Query` is a computation on the messages alone, `Query.answer`, which knows neither a
service nor a world, and `actsAs_run` says that the service does nothing else:

* the world is left as it is, but for the log, so nothing is fetched or written;
* what comes back is what `Query.answer` gives, so nothing that is read matters.

`replies_eq` carries this along a run in which every query finds a world of its own.
Two runs are then compared through `Query.answer` alone (`isolated_of_given`): they may
start from different configuration files, find different clocks, files and networks,
and differ in the reloads that are put between the other queries.
-/
import FieldCheck.Proofs.Service.FailedReload

namespace FieldCheck

open FieldCheck.Action

namespace Service

/-! ## Queries and replies -/

/-- What a service is asked, with all arguments. Other than with a `Call`, what it answers
counts; records from files are left out, since they come from the world. -/
inductive Query where
  | check (descriptors record : Value)
  | require (descriptors record : Value)
  | report (o : Outcome)
  | discover (descriptors : Value)
  | batch (records descriptors fields : Value)
  | message (key : Value)
  | reload
  | age

/-- What a service answers. -/
inductive Answer where
  | nothing
  | outcome (o : Outcome)
  | report (r : Report)
  | findings (fs : List Finding)
  | results (rs : List BatchResult)
  | message (v : Value)
  | age (a : Option Double)

/-- What a service does when it is asked, and what it answers. -/
def Query.run : Query → Action Service Answer
  | check descriptors record => do
    let o ← Service.check descriptors record
    pure (.outcome o)
  | require descriptors record => do
    Service.require descriptors record
    pure .nothing
  | report o => do
    let r ← Service.report o
    pure (.report r)
  | discover descriptors => do
    let fs ← Service.discover descriptors
    pure (.findings fs)
  | batch records descriptors fields => do
    let rs ← Service.batch records descriptors fields
    pure (.results rs)
  | message key => do
    let v ← Service.message key
    pure (.message v)
  | reload => do
    Service.reload
    pure .nothing
  | age => do
    let s ← Action.state
    let w ← Action.world
    pure (.age (s.age w.clock))

/-- The query asks for a reload. -/
def Query.isReload : Query → Bool
  | reload => true
  | _ => false

/-- What comes back: the answer or a fault, and what was logged on the way. -/
def Query.reply (q : Query) (s : Service) (w : World) : Traced Answer :=
  ⟨(q.run s w).1, (q.run s w).2.2.log.drop w.log.length⟩

/-! ## Runs -/

/-- The service behind some queries, each of them in a world of its own. -/
def after (s : Service) : List (World × Query) → Service
  | [] => s
  | (w, q) :: rest => after (q.run s w).2.1 rest

/-- The queries, each with what comes back. -/
def replies (s : Service) : List (World × Query) → List (Query × Traced Answer)
  | [] => []
  | (w, q) :: rest => (q, q.reply s w) :: replies (q.run s w).2.1 rest

end Service

/-! ## Answers from the messages alone -/

namespace Messages

/-- A demand, answered from the messages alone. -/
def require (m : Messages) (descriptors record : Value) : Traced Unit := do
  let o ← FieldCheck.check descriptors record
  if o.isOk then pure ()
  else do
    let r ← m.report o
    Traced.ofExcept (Service.refusal o r)

/-- The result for a record, from the messages alone. -/
def batchOne (m : Messages) (descriptors fields record : Value) : Traced BatchResult := do
  let o ← FieldCheck.check descriptors record
  let id ← Traced.ofExcept (Service.recordId fields record)
  let r ← m.report o
  pure ⟨id, o, r⟩

/-- The results for the records that a value holds, from the messages alone. -/
def batch (m : Messages) (records descriptors fields : Value) : Traced (List BatchResult) := do
  let rs ← Traced.ofExcept records.elements
  rs.mapM' (m.batchOne descriptors fields)

end Messages

namespace Service

/-- The answer to a query, and what is logged on the way, from the messages alone. The
locale is named in the log. -/
def Query.answer (m : Messages) (locale : Value) : Query → Traced Answer
  | check descriptors record => do
    let o ← FieldCheck.check descriptors record
    pure (.outcome o)
  | require descriptors record => do
    m.require descriptors record
    pure .nothing
  | report o => do
    let r ← m.report o
    pure (.report r)
  | discover descriptors => do
    let fs ← FieldCheck.discover descriptors
    pure (.findings fs)
  | batch records descriptors fields => do
    let rs ← m.batch records descriptors fields
    pure (.results rs)
  | message key => do
    let v ← m.find key
    pure (.message v)
  | reload => do
    Traced.write ⟨.info, .service, "Message catalog reloaded for locale " ++ locale.quoted⟩
    pure .nothing
  | age => pure (.age none)

/-! ## Services with given messages -/

/-- The service was given the messages, uses them for everything, and has the locale. -/
structure IsGiven (m : Messages) (locale : Value) (s : Service) : Prop where
  injected : s.injected = some m
  messages : s.messages = m
  engine : s.engine = ⟨m⟩
  locale : s.locale = locale

variable {m : Messages} {l : Value} {s : Service}

theorem IsGiven.age (h : IsGiven m l s) (now : Double) : s.age now = none := by
  rw [Service.age, h.injected]

/-- To start with given messages is to read the configuration. -/
theorem isGiven_of_start {config : Option String} {locale : Value} {w w' : World}
    (h : start config (some m) locale w = (.ok s, w')) :
    w' = w ∧ IsGiven m (s.catalogs.settings.effectiveLocale locale) s := by
  obtain ⟨c, -, hprepare⟩ := exists_of_start h
  cases hprepare
  exact ⟨rfl, rfl, rfl, rfl, rfl⟩

/-- A look stops at the given messages. -/
theorem actsAs_look : ActsAs (IsGiven m l) (pure ()) look := by
  refine .state_bind fun s hs => .world_bind fun w => ?_
  rw [if_pos (by simp [hs.injected])]
  exact actsAs_pure ()

theorem actsAs_check (descriptors record : Value) :
    ActsAs (IsGiven m l) (FieldCheck.check descriptors record) (check descriptors record) :=
  actsAs_look.behind fun _ => actsAs_ofTraced _

theorem actsAs_discover (descriptors : Value) :
    ActsAs (IsGiven m l) (FieldCheck.discover descriptors) (discover descriptors) :=
  actsAs_look.behind fun _ => actsAs_ofTraced _

theorem actsAs_report (o : Outcome) : ActsAs (IsGiven m l) (m.report o) (report o) := by
  refine .state_bind fun s hs => ?_
  rw [hs.engine]
  exact actsAs_ofTraced _

theorem actsAs_message (key : Value) : ActsAs (IsGiven m l) (m.find key) (message key) := by
  refine .state_bind fun s hs => ?_
  rw [hs.messages]
  exact actsAs_ofTraced _

theorem actsAs_require (descriptors record : Value) :
    ActsAs (IsGiven m l) (m.require descriptors record) (require descriptors record) := by
  refine (actsAs_check descriptors record).bind fun o => ?_
  split
  · exact actsAs_pure ()
  · exact (actsAs_report o).bind fun r => actsAs_ofExcept _

theorem actsAs_batchOne (descriptors fields record : Value) :
    ActsAs (IsGiven m l) (m.batchOne descriptors fields record)
      (batchOne descriptors fields record) :=
  (actsAs_check descriptors record).bind fun o => (actsAs_ofExcept _).bind fun _ =>
    (actsAs_report o).bind fun _ => actsAs_pure _

theorem actsAs_batch (records descriptors fields : Value) :
    ActsAs (IsGiven m l) (m.batch records descriptors fields) (batch records descriptors fields) :=
  (actsAs_ofExcept _).bind fun rs => .forEach (actsAs_batchOne descriptors fields) rs

/-- A reload takes the given messages again. It notes its time, which nothing reads. -/
theorem actsAs_prepare : ActsAs (IsGiven m l) (pure ()) prepare := by
  refine .state_bind fun s hs => ?_
  rw [hs.injected]
  have htake : ActsAs (IsGiven m l) (pure ()) (changeState fun s => { s with messages := m }) :=
    actsAs_changeState fun s hs => ⟨hs.injected, rfl, hs.engine, hs.locale⟩
  have hrenew : ActsAs (IsGiven m l) (pure ()) renewEngine :=
    actsAs_changeState fun s hs => ⟨hs.injected, hs.messages, by rw [hs.messages], hs.locale⟩
  refine htake.behind fun _ => hrenew.behind fun _ => .world_bind fun w => ?_
  exact actsAs_changeState fun s hs => ⟨hs.injected, hs.messages, hs.engine, hs.locale⟩

theorem actsAs_reload :
    ActsAs (IsGiven m l)
      (Traced.write ⟨.info, .service, "Message catalog reloaded for locale " ++ l.quoted⟩)
      reload := by
  refine actsAs_prepare.behind fun _ => .state_bind fun s hs => ?_
  rw [hs.locale]
  exact actsAs_log _ _ _

/-- Whatever it is asked, a service with given messages computes the answer from them. -/
theorem actsAs_run (q : Query) : ActsAs (IsGiven m l) (q.answer m l) q.run := by
  cases q with
  | check ds r => exact (actsAs_check ds r).bind fun _ => actsAs_pure _
  | require ds r => exact (actsAs_require ds r).bind fun _ => actsAs_pure _
  | report o => exact (actsAs_report o).bind fun _ => actsAs_pure _
  | discover ds => exact (actsAs_discover ds).bind fun _ => actsAs_pure _
  | batch rs ds fs => exact (actsAs_batch rs ds fs).bind fun _ => actsAs_pure _
  | message key => exact (actsAs_message key).bind fun _ => actsAs_pure _
  | reload => exact actsAs_reload.bind fun _ => actsAs_pure _
  | age =>
    refine .state_bind fun s hs => .world_bind fun w => ?_
    rw [hs.age]
    exact actsAs_pure _

/-! ## Whole runs -/

theorem reply_eq (h : IsGiven m l s) (q : Query) (w : World) : q.reply s w = q.answer m l := by
  obtain ⟨s', -, hrun⟩ := actsAs_run q s w h
  rw [Query.reply, hrun, World.logged, List.drop_left]

theorem IsGiven.run (h : IsGiven m l s) (q : Query) (w : World) : IsGiven m l (q.run s w).2.1 := by
  obtain ⟨s', hs', hrun⟩ := actsAs_run q s w h
  rw [hrun]
  exact hs'

theorem IsGiven.after (h : IsGiven m l s) (asked : List (World × Query)) :
    IsGiven m l (after s asked) := by
  induction asked generalizing s with
  | nil => exact h
  | cons a rest ih => exact ih (h.run a.2 a.1)

/-- Along a run each query is answered as if there were no others. -/
theorem replies_eq (h : IsGiven m l s) (asked : List (World × Query)) :
    replies s asked = (asked.map Prod.snd).map fun q => (q, q.answer m l) := by
  induction asked generalizing s with
  | nil => rfl
  | cons a rest ih =>
    obtain ⟨w, q⟩ := a
    rw [replies, reply_eq h, ih (h.run q w)]
    rfl

/-- The replies to all queries but the reloads. -/
theorem filter_replies_eq (h : IsGiven m l s) (asked : List (World × Query)) :
    (replies s asked).filter (!·.1.isReload)
      = ((asked.map Prod.snd).filter (!·.isReload)).map fun q => (q, q.answer m l) := by
  rw [replies_eq h, List.filter_map]
  rfl

/-- Two services with the same given messages and the same settings, whatever worlds
they were started in. Neither has ever an age, and no query of theirs does anything to a
world but log. Asked the same in any worlds they reply the same; and reloads that are put
in between change none of the other replies. -/
theorem isolated_of_given {config config' locale : Option String} {v v' w w' : World}
    {s t : Service} (hs : start config (some m) (localeValue locale) v = (.ok s, v'))
    (ht : start config' (some m) (localeValue locale) w = (.ok t, w'))
    (hsettings : t.catalogs.settings = s.catalogs.settings) :
    v' = v
      ∧ (∀ asked now, (after s asked).age now = none)
      ∧ (∀ asked (q : Query) u, ∃ rs, (q.run (after s asked) u).2.2 = u.logged rs)
      ∧ (∀ asked asked', asked.map Prod.snd = asked'.map Prod.snd →
          replies s asked = replies t asked')
      ∧ ∀ asked asked',
          (asked.map Prod.snd).filter (!·.isReload) = (asked'.map Prod.snd).filter (!·.isReload) →
          (replies s asked).filter (!·.1.isReload) = (replies t asked').filter (!·.1.isReload) := by
  obtain ⟨hv, hgiven⟩ := isGiven_of_start hs
  obtain ⟨-, hgiven'⟩ := isGiven_of_start ht
  rw [hsettings] at hgiven'
  refine ⟨hv, fun asked now => (hgiven.after asked).age now, fun asked q u => ?_,
    fun asked asked' hsame => ?_, fun asked asked' hsame => ?_⟩
  · obtain ⟨s', -, hrun⟩ := actsAs_run q _ u (hgiven.after asked)
    exact ⟨_, by rw [hrun]⟩
  · rw [replies_eq hgiven, replies_eq hgiven', hsame]
  · rw [filter_replies_eq hgiven, filter_replies_eq hgiven', hsame]

/-- Messages that a caller gives. -/
def spoken : Messages := .table [(.text Messages.reportKey, .text "Missing: ")]

/-- The service that is started with them at a time. -/
def handed (now : Double) : Service where
  catalogs := ⟨"/c", ⟨"m", "en", .whole 1800, .warning⟩, []⟩
  locale := .text "en"
  injected := some spoken
  messages := spoken
  engine := ⟨spoken⟩
  lastLook := now

/-- A report is the same behind a reload, at another time and beside another catalog. -/
theorem isolated_of_given_handed :
    start (some "/c") (some spoken) (localeValue none) (shelf (.dict []) .zero)
        = (.ok (handed .zero), shelf (.dict []) .zero)
      ∧ start (some "/c") (some spoken) (localeValue none) (shelf .null later)
        = (.ok (handed later), shelf .null later)
      ∧ (after (handed .zero) [(shelf (.list [.null]) later, .reload)]).age later = none
      ∧ (replies (handed .zero) [(shelf (.list [.null]) later, .reload),
            (shelf .null later, .report ⟨["name"]⟩)]).filter (!·.1.isReload)
          = (replies (handed later) [(shelf (.dict []) .zero, .report ⟨["name"]⟩)]).filter
              (!·.1.isReload)
      ∧ (replies (handed later) [(shelf (.dict []) .zero, .report ⟨["name"]⟩)]).filter
            (!·.1.isReload)
          = [(.report ⟨["name"]⟩, ⟨.ok (.report (.error "Missing: name")), []⟩)] := by
  have hs : start (some "/c") (some spoken) (localeValue none) (shelf (.dict []) .zero)
      = (.ok (handed .zero), shelf (.dict []) .zero) := rfl
  have ht : start (some "/c") (some spoken) (localeValue none) (shelf .null later)
      = (.ok (handed later), shelf .null later) := rfl
  obtain ⟨-, hage, -, -, hreplies⟩ := isolated_of_given hs ht rfl
  exact ⟨hs, ht, hage _ _, hreplies _ _ rfl, rfl⟩

end Service

end FieldCheck
