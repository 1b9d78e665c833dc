/-
FieldCheck.Proofs.Service.Looking — calls that look at the age of the messages.

Checks and discovery begin with a look, and a batch begins with one for each of
its records. Behind the look such an action does nothing but log
(`BeginsWithLook`), so what it does to the service is what the look does.

A look that ends well leaves a service that `Rests`: another look at that time
does nothing and notes nothing. All looks of a call are made at one time, so what
a call does to the service is what its first look does (`Call.Looks.state_look`).

A look that finds the messages too old goes on to a reload. `Call.Reloads` says
where that happens in the course of a call. In a batch only the first look can
go on to a reload.
-/
import FieldCheck.Proofs.Service.Calls

namespace FieldCheck

open FieldCheck.Action

namespace Service

variable {s : Service}

/-! ## Settled services -/

/-- Messages that were just loaded are never too old. -/
theorem isBelow_sub_self {q : Quantity} (h : isNegative q.toValue = false) (now : Double) :
    q.isBelow (now.sub now) = false := by
  rcases Double.sub_self now with hzero | hnan
  · rw [hzero]
    cases q with
    | whole n =>
      have hn : 0 ≤ n := Int.not_lt.1 (of_decide_eq_false h)
      have hprod : 0 ≤ n * Double.unitsPerOne := Int.mul_nonneg hn (Int.natCast_nonneg _)
      exact decide_eq_false (Int.not_lt.2 hprod)
    | real x =>
      cases x with
      | nan => rfl
      | infinite negative => exact h
      | finite negative code bounded =>
        have hx : ¬ Double.signedUnits negative code < 0 * Double.unitsPerOne :=
          of_decide_eq_false h
        rw [Int.zero_mul] at hx
        exact decide_eq_false hx
  · rw [hnan]
    cases q with
    | whole n => rfl
    | real x => cases x <;> rfl

/-- A service that has just loaded its messages is settled. -/
theorem settled_renewed (hs : IsConfigured s) (hown : s.injected = none) (m : Messages)
    (now : Double) : (s.renewed m now).Settled now := by
  have hage : (s.renewed m now).age now = some (now.sub now) := hs.age_noted hown now now
  refine .inr fun age hmem => ?_
  rw [hage] at hmem
  obtain rfl := Option.some.inj hmem
  exact isBelow_sub_self hs.maxAge_nonneg now

/-- After a look that ends well, another one at that time has nothing to do. -/
theorem settled_of_look {s' : Service} {w w' : World} (hs : IsConfigured s)
    (h : look s w = (.ok (), s', w')) : s'.Settled w.clock := by
  rcases look_cases s w with ⟨s₀, w₀, hstale⟩ | ⟨f, hlook⟩ | ⟨hlook, hset⟩ | ⟨hlook, hset⟩
  · rw [look_of_findsStale hstale] at h
    obtain ⟨rfl, hclock⟩ := hstale.start
    have hs₀ : IsConfigured (s.looked w.clock) := hs.of_setup rfl
    obtain ⟨v, -, ⟨-, f, hr⟩ | ⟨-, f, hr⟩ | ⟨-, texts, hr⟩⟩ :=
      reload_cases (s := s.looked w.clock) hstale.injected w₀
    · rw [hr] at h
      cases h
    · rw [hr] at h
      cases h
    · rw [hr, hclock] at h
      cases h
      exact settled_renewed hs₀ hstale.injected (.catalog texts) w.clock
  · rw [hlook] at h
    cases h
  · rw [hlook] at h
    cases h
    exact hset
  · rw [hlook] at h
    cases h
    exact hset

/-! ## Actions that begin with a look -/

/-- The service and the world without its log. -/
def withoutLog (s : Service) (w : World) : Service × World := (s, { w with log := [] })

theorem eq_of_withoutLog {s' : Service} {w w' : World} (h : withoutLog s' w' = withoutLog s w) :
    s' = s := congrArg Prod.fst h

theorem keeps_service {α : Type} {x : Action Service α} (h : Keeps withoutLog x) :
    Keeps (fun s _ => s) x := fun s w => eq_of_withoutLog (h s w)

/-- The action begins with a look and does nothing but log behind it. -/
def BeginsWithLook {α : Type} (x : Action Service α) : Prop :=
  ∃ rest : Action Service α, x = (look >>= fun _ => rest) ∧ Keeps withoutLog rest

theorem beginsWithLook_ofTraced {α : Type} (t : Traced α) :
    BeginsWithLook (look >>= fun _ => ofTraced t) :=
  ⟨ofTraced t, rfl, keeps_ofTraced (fun _ _ _ => rfl) t⟩

theorem BeginsWithLook.bind {α β : Type} {x : Action Service α} {f : α → Action Service β}
    (h : BeginsWithLook x) (hf : ∀ a, Keeps withoutLog (f a)) : BeginsWithLook (x >>= f) := by
  obtain ⟨rest, rfl, hrest⟩ := h
  exact ⟨rest >>= f, bind_assoc _ _ _, hrest.bind hf⟩

/-- What such an action does to the service is what the look does. -/
theorem BeginsWithLook.state_look {α : Type} {x : Action Service α} (h : BeginsWithLook x)
    (s : Service) (w : World) : (x s w).2.1 = (look s w).2.1 := by
  obtain ⟨rest, rfl, hrest⟩ := h
  exact state_bind_of_keeps (fun _ => keeps_service hrest) look s w

/-- What it does to the world is what the look does, but for the log. -/
theorem BeginsWithLook.withoutLog_eq {α : Type} {x : Action Service α} (h : BeginsWithLook x)
    (s : Service) (w : World) : withoutLog (x s w).2.1 (x s w).2.2
      = withoutLog (look s w).2.1 (look s w).2.2 := by
  obtain ⟨rest, rfl, hrest⟩ := h
  rcases hlook : look s w with ⟨f | u, s₁, w₁⟩
  · rw [bind_of_error _ hlook]
  · rw [bind_of_ok _ hlook]
    exact hrest s₁ w₁

theorem BeginsWithLook.of_error {α : Type} {x : Action Service α} (h : BeginsWithLook x)
    {s' : Service} {w w' : World} {f : Fault} (hlook : look s w = (.error f, s', w')) :
    x s w = (.error f, s', w') := by
  obtain ⟨rest, rfl, -⟩ := h
  exact bind_of_error _ hlook

/-- Where such an action ends well, the look did. -/
theorem BeginsWithLook.look_of_ok {α : Type} {x : Action Service α} (h : BeginsWithLook x)
    {s' : Service} {w w' : World} {a : α} (hx : x s w = (.ok a, s', w')) :
    ∃ w₁, look s w = (.ok (), s', w₁) := by
  obtain ⟨rest, rfl, hrest⟩ := h
  rcases hlook : look s w with ⟨f | u, s₁, w₁⟩
  · rw [bind_of_error _ hlook] at hx
    cases hx
  · rw [bind_of_ok _ hlook] at hx
    have hsame := keeps_service hrest s₁ w₁
    rw [hx] at hsame
    obtain rfl : s' = s₁ := hsame
    exact ⟨w₁, rfl⟩

theorem BeginsWithLook.settled {α : Type} {x : Action Service α} (h : BeginsWithLook x)
    (hs : IsConfigured s) {s' : Service} {w w' : World} {a : α} (hx : x s w = (.ok a, s', w')) :
    s'.Settled w.clock := by
  obtain ⟨w₁, hlook⟩ := h.look_of_ok hx
  exact settled_of_look hs hlook

theorem beginsWithLook_check (descriptors record : Value) :
    BeginsWithLook (check descriptors record) := beginsWithLook_ofTraced _

theorem beginsWithLook_discover (descriptors : Value) : BeginsWithLook (discover descriptors) :=
  beginsWithLook_ofTraced _

/-- A report does nothing but log. -/
theorem keeps_withoutLog_report (o : Outcome) : Keeps withoutLog (report o) :=
  (keeps_state _).bind fun _ => keeps_ofTraced (fun _ _ _ => rfl) _

theorem keeps_withoutLog_message (key : Value) : Keeps withoutLog (message key) :=
  (keeps_state _).bind fun _ => keeps_ofTraced (fun _ _ _ => rfl) _

theorem beginsWithLook_require (descriptors record : Value) :
    BeginsWithLook (require descriptors record) := by
  refine (beginsWithLook_check descriptors record).bind fun o => ?_
  split
  · exact keeps_pure _ ()
  · exact (keeps_withoutLog_report o).bind fun r => keeps_ofExcept _ _

theorem beginsWithLook_batchOne (descriptors fields record : Value) :
    BeginsWithLook (batchOne descriptors fields record) := by
  refine (beginsWithLook_check descriptors record).bind fun o => ?_
  exact (keeps_ofExcept _ _).bind fun id => (keeps_withoutLog_report o).bind fun r => keeps_pure _ _

/-! ## Looks that come too early, and looks that are due -/

/-- A look is due: there is no source that was given, and it is not too early. -/
def IsDue (s : Service) (now : Double) : Prop := s.injected = none ∧ s.isTooEarly now = false

/-- A look that is not due does nothing. -/
theorem look_of_not_isDue {w : World} (h : ¬ s.IsDue w.clock) : look s w = (.ok (), s, w) := by
  have hskipped : (s.injected.isSome || s.isTooEarly w.clock) = true := by
    cases hgiven : s.injected with
    | some m => rfl
    | none =>
      cases hearly : s.isTooEarly w.clock with
      | true => rfl
      | false => exact absurd ⟨hgiven, hearly⟩ h
  rw [look, state_bind, world_bind, if_pos hskipped]
  rfl

/-- A look that comes too early does nothing. -/
theorem look_of_tooEarly {w : World} (h : s.isTooEarly w.clock = true) :
    look s w = (.ok (), s, w) := by
  refine look_of_not_isDue fun hdue => ?_
  rw [hdue.2] at h
  cases h

/-- A look that is due and finds no old messages notes its time. -/
theorem look_of_fresh {w : World} (hdue : s.IsDue w.clock)
    (hfresh : ∀ age ∈ s.age w.clock, s.catalogs.settings.maxAge.isBelow age = false) :
    look s w = (.ok (), s.looked w.clock, w) := by
  have hage : (s.looked w.clock).age w.clock = s.age w.clock := rfl
  rw [look_of_due hdue.1 hdue.2, reloadIfOld, state_bind, world_bind, hage]
  cases hcase : s.age w.clock with
  | none => rfl
  | some age =>
    have hyoung : (s.looked w.clock).catalogs.settings.maxAge.isBelow age = false :=
      hfresh age hcase
    simp only [hyoung]
    rfl

/-- The time of a look that is due is noted, whatever it finds and however it ends. -/
theorem lastLook_look {w : World} (hdue : s.IsDue w.clock) :
    (look s w).2.1.lastLook = w.clock := by
  rcases look_cases s w with ⟨s₀, w₀, hstale⟩ | ⟨f, hlook⟩ | ⟨-, hset⟩ | ⟨hlook, -⟩
  · obtain ⟨rfl, hclock⟩ := hstale.start
    rw [look_of_findsStale hstale]
    rcases reload_ends (s.looked w.clock) w₀ with ⟨-, hnoted⟩ | ⟨-, hkept, -⟩
    · rw [hnoted, hclock]
    · rw [hkept]
      rfl
  · rw [hlook]
    rfl
  · rcases hset with hearly | hfresh
    · rw [hdue.2] at hearly
      cases hearly
    · rw [look_of_fresh hdue hfresh]
      rfl
  · rw [hlook]
    rfl

/-! ## Services that rest -/

/-- At this time a look does nothing and notes nothing: none is due, or there was one
already and the messages are young enough. -/
inductive Rests (s : Service) (now : Double) : Prop
  | skipped (h : ¬ s.IsDue now)
  | looked (hnoted : s.lastLook = now)
      (hfresh : ∀ age ∈ s.age now, s.catalogs.settings.maxAge.isBelow age = false)

/-- A look at a service that rests leaves everything as it is. -/
theorem look_of_rests {w : World} (h : s.Rests w.clock) : look s w = (.ok (), s, w) := by
  by_cases hdue : s.IsDue w.clock
  · cases h with
    | skipped h => exact absurd hdue h
    | looked hnoted hfresh =>
      rw [look_of_fresh hdue hfresh, ← hnoted]
      rfl
  · exact look_of_not_isDue hdue

/-- A look that ends well leaves a service that rests. -/
theorem rests_of_look {s' : Service} {w w' : World} (hs : IsConfigured s)
    (h : look s w = (.ok (), s', w')) : s'.Rests w'.clock := by
  have hclock := keeps_look ignoresCalls_clock s w
  rw [h] at hclock
  rw [hclock]
  by_cases hdue : s.IsDue w.clock
  · have hnoted := lastLook_look hdue
    rw [h] at hnoted
    rcases settled_of_look hs h with hearly | hfresh
    · refine .skipped fun hdue' => ?_
      rw [hdue'.2] at hearly
      cases hearly
    · exact .looked hnoted hfresh
  · rw [look_of_not_isDue hdue] at h
    cases h
    exact .skipped hdue

/-! ## Batches and their first look -/

theorem batchList_of_look_error {descriptors fields record : Value} {after : List Value}
    {s' : Service} {w w' : World} {f : Fault} (h : look s w = (.error f, s', w')) :
    batchList (record :: after) descriptors fields s w = (.error f, s', w') :=
  bind_of_error _ ((beginsWithLook_batchOne descriptors fields record).of_error h)

/-- What a batch does to the service is what its first look does. -/
theorem batchList_state_look (hs : IsConfigured s) (descriptors fields record : Value)
    (rest : List Value) (w : World) :
    (batchList (record :: rest) descriptors fields s w).2.1 = (look s w).2.1 := by
  rcases hlook : look s w with ⟨f | u, s₁, w₁⟩
  · rw [batchList_of_look_error hlook]
  · have hfirst : (batchOne descriptors fields record s w).2.1 = s₁ := by
      rw [(beginsWithLook_batchOne _ _ _).state_look, hlook]
    refine forEach_cons_state hfirst (forEach_state (P := fun v => s₁.Rests v.clock) ?_ rest ?_)
    · intro other v hrests
      have hclock := keeps_batchOne ignoresCalls_clock descriptors fields other s₁ v
      refine ⟨?_, by rw [hclock]; exact hrests⟩
      rw [(beginsWithLook_batchOne _ _ _).state_look, look_of_rests hrests]
    · have hclock := keeps_batchOne ignoresCalls_clock descriptors fields record s w
      have hlooked := keeps_look ignoresCalls_clock s w
      rw [hlook] at hlooked
      rw [hclock, ← hlooked]
      exact rests_of_look hs hlook

/-! ## Calls that go on to a reload -/

/-- In the course of a call of a service in a world, a reload of another
service in another world is started. In a batch it is started for one of the
records, after the ones in front of it were checked. -/
inductive Call.Reloads : Call → Service → World → Service → World → Prop
  | reload (s : Service) (w : World) : Reloads .reload s w s w
  | check {s s₀ : Service} {w w₀ : World} {descriptors record : Value}
      (h : FindsStale s w s₀ w₀) : Reloads (.check descriptors record) s w s₀ w₀
  | require {s s₀ : Service} {w w₀ : World} {descriptors record : Value}
      (h : FindsStale s w s₀ w₀) : Reloads (.require descriptors record) s w s₀ w₀
  | discover {s s₀ : Service} {w w₀ : World} {descriptors : Value}
      (h : FindsStale s w s₀ w₀) : Reloads (.discover descriptors) s w s₀ w₀
  | batch {s s₀ s' : Service} {w w₀ w' : World} {records descriptors fields record : Value}
      {before after : List Value} {results : List BatchResult}
      (hrecords : records.elements = .ok (before ++ record :: after))
      (hbefore : batchList before descriptors fields s w = (.ok results, s', w'))
      (h : FindsStale s' w' s₀ w₀) : Reloads (.batch records descriptors fields) s w s₀ w₀
  | batchFile {s s₀ s' s'' : Service} {w w₀ w' w'' : World}
      {location descriptors fields record : Value} {before after : List Value}
      {results : List BatchResult}
      (hrecords : Records.loadAt location s w = (.ok (before ++ record :: after), s', w'))
      (hbefore : batchList before descriptors fields s' w' = (.ok results, s'', w''))
      (h : FindsStale s'' w'' s₀ w₀) : Reloads (.batchFile location descriptors fields) s w s₀ w₀

theorem FindsStale.exists_age {s₀ : Service} {w w₀ : World} (h : FindsStale s w s₀ w₀) :
    ∃ age, s₀.age w₀.clock = some age ∧ s₀.catalogs.settings.maxAge.isBelow age = true := by
  obtain ⟨age, message, hage, hold, -, rfl⟩ := h.stale
  obtain rfl := h.state_eq
  exact ⟨age, hage, hold⟩

/-- A reload in a batch is started for the first record. -/
theorem eq_nil_of_findsStale {descriptors fields : Value} {before : List Value} {s₀ s' : Service}
    {w w₀ w' : World} {results : List BatchResult} (hs : IsConfigured s)
    (hbefore : batchList before descriptors fields s w = (.ok results, s', w'))
    (h : FindsStale s' w' s₀ w₀) : before = [] ∧ s' = s ∧ w' = w := by
  have hclock := keeps_batchList ignoresCalls_clock before descriptors fields s w
  rw [hbefore] at hclock
  cases before with
  | nil =>
    cases hbefore
    exact ⟨rfl, rfl, rfl⟩
  | cons record rest =>
    have hstate := batchList_state_look hs descriptors fields record rest w
    rcases hlook : look s w with ⟨f | u, s₁, w₁⟩
    · rw [batchList_of_look_error hlook] at hbefore
      cases hbefore
    · rw [hbefore, hlook] at hstate
      obtain rfl : s' = s₁ := hstate
      have hset : s'.Settled w'.clock := by
        rw [hclock]
        exact settled_of_look hs hlook
      exact absurd h (not_findsStale_of_settled hset s₀ w₀)

/-- A call that goes on to a reload that fails has the fault of the reload, and
ends where the reload ends. -/
theorem Call.Reloads.run_of_error {call : Call} {s₀ s₁ : Service} {w w₀ w₁ : World} {f : Fault}
    (h : call.Reloads s w s₀ w₀) (hs : IsConfigured s)
    (hfail : Service.reload s₀ w₀ = (.error f, s₁, w₁)) : call.run s w = (.error f, s₁, w₁) := by
  have hlook : ∀ {s : Service} {w : World}, FindsStale s w s₀ w₀ →
      look s w = (.error f, s₁, w₁) := fun h => (look_of_findsStale h).trans hfail
  cases h with
  | reload => exact hfail
  | check h => exact bind_of_error _ ((beginsWithLook_check _ _).of_error (hlook h))
  | require h => exact (beginsWithLook_require _ _).of_error (hlook h)
  | discover h => exact bind_of_error _ ((beginsWithLook_discover _).of_error (hlook h))
  | batch hrecords hbefore h =>
    obtain ⟨rfl, rfl, rfl⟩ := eq_nil_of_findsStale hs hbefore h
    rw [run, Service.batch, hrecords]
    exact bind_of_error _ (batchList_of_look_error (hlook h))
  | batchFile hrecords hbefore h =>
    obtain ⟨rfl, -⟩ := Records.eq_of_loadAt hrecords
    obtain ⟨rfl, rfl, rfl⟩ := eq_nil_of_findsStale hs hbefore h
    rw [run, Service.batchFile]
    exact bind_of_error _ ((bind_of_ok _ hrecords).trans (batchList_of_look_error (hlook h)))

/-- The reload in a call starts at the time of the call, from a service that
differs at most in the time of the last look. -/
theorem Call.Reloads.start {call : Call} {s₀ : Service} {w w₀ : World}
    (h : call.Reloads s w s₀ w₀) (hs : IsConfigured s) :
    (s₀ = s ∨ s₀ = s.looked w.clock) ∧ w₀.clock = w.clock := by
  cases h with
  | reload => exact ⟨.inl rfl, rfl⟩
  | check h => exact ⟨.inr h.start.1, h.start.2⟩
  | require h => exact ⟨.inr h.start.1, h.start.2⟩
  | discover h => exact ⟨.inr h.start.1, h.start.2⟩
  | batch hrecords hbefore h =>
    obtain ⟨rfl, rfl, rfl⟩ := eq_nil_of_findsStale hs hbefore h
    exact ⟨.inr h.start.1, h.start.2⟩
  | batchFile hrecords hbefore h =>
    obtain ⟨rfl, hclock⟩ := Records.eq_of_loadAt hrecords
    obtain ⟨-, hs'', hw''⟩ := eq_nil_of_findsStale hs hbefore h
    have hstart := h.start
    rw [hs'', hw'', hclock] at hstart
    exact ⟨.inr hstart.1, hstart.2⟩

theorem Call.Reloads.injected {call : Call} {s₀ : Service} {w₀ : World}
    (h : call.Reloads s w s₀ w₀) (hs : IsConfigured s) : s₀.injected = s.injected := by
  obtain ⟨rfl | rfl, -⟩ := h.start hs <;> rfl

/-! ## Calls that look -/

/-- A call of a service in a world makes at least one look, and the first one
in the other world. It differs from the first at most by a request for records. -/
inductive Call.Looks (s : Service) (w : World) : Call → World → Prop
  | check (descriptors record : Value) : Looks s w (.check descriptors record) w
  | require (descriptors record : Value) : Looks s w (.require descriptors record) w
  | discover (descriptors : Value) : Looks s w (.discover descriptors) w
  | batch {records record : Value} {rest : List Value} (descriptors fields : Value)
      (h : records.elements = .ok (record :: rest)) :
      Looks s w (.batch records descriptors fields) w
  | batchFile {location record : Value} {rest : List Value} {w₁ : World}
      (descriptors fields : Value)
      (h : Records.loadAt location s w = (.ok (record :: rest), s, w₁)) :
      Looks s w (.batchFile location descriptors fields) w₁

variable {call : Call} {w w₁ : World}

theorem Call.Looks.clock_eq (h : call.Looks s w w₁) : w₁.clock = w.clock := by
  cases h with
  | batchFile ds fs h => exact (Records.eq_of_loadAt h).2
  | _ => rfl

/-- If the first look finds stale messages, the call goes on to a reload. -/
theorem Call.Looks.reloads (h : call.Looks s w w₁) {s₀ : Service} {w₀ : World}
    (hstale : FindsStale s w₁ s₀ w₀) : call.Reloads s w s₀ w₀ := by
  cases h with
  | check ds r => exact .check hstale
  | require ds r => exact .require hstale
  | discover ds => exact .discover hstale
  | @batch records record rest ds fs h =>
    have hfirst : records.elements = .ok ([] ++ record :: rest) := h
    exact .batch hfirst rfl hstale
  | @batchFile location record rest _ ds fs h =>
    have hfirst : Records.loadAt location s w = (.ok ([] ++ record :: rest), s, w₁) := h
    exact .batchFile hfirst rfl hstale

/-- What a call does to the service is what its first look does. -/
theorem Call.Looks.state_look (hs : IsConfigured s) (h : call.Looks s w w₁) :
    (call.run s w).2.1 = (look s w₁).2.1 := by
  cases h with
  | check ds r =>
    rw [run, state_bind_pure]
    exact (beginsWithLook_check ds r).state_look s w
  | require ds r => exact (beginsWithLook_require ds r).state_look s w
  | discover ds =>
    rw [run, state_bind_pure]
    exact (beginsWithLook_discover ds).state_look s w
  | batch ds fs hrecords =>
    rw [run, state_bind_pure, Service.batch, hrecords]
    exact batchList_state_look hs ds fs _ _ w
  | batchFile ds fs hrecords =>
    rw [run, state_bind_pure, Service.batchFile, bind_of_ok _ hrecords]
    exact batchList_state_look hs ds fs _ _ _

/-- A call that makes no look and is no reload changes nothing of the service. -/
theorem Call.state_of_not_looks (hreload : call ≠ .reload) (h : ∀ w₁, ¬ call.Looks s w w₁) :
    (call.run s w).2.1 = s := by
  cases call with
  | check ds r => exact absurd (.check ds r) (h w)
  | require ds r => exact absurd (.require ds r) (h w)
  | discover ds => exact absurd (.discover ds) (h w)
  | reload => exact absurd rfl hreload
  | report o =>
    rw [run, state_bind_pure]
    exact keeps_service (keeps_withoutLog_report o) s w
  | message key =>
    rw [run, state_bind_pure]
    exact keeps_service (keeps_withoutLog_message key) s w
  | batch records ds fs =>
    rw [run, state_bind_pure, Service.batch]
    cases hrecords : records.elements with
    | error f => rfl
    | ok rs =>
      cases rs with
      | nil => rfl
      | cons record rest => exact absurd (.batch ds fs hrecords) (h w)
  | batchFile location ds fs =>
    rw [run, state_bind_pure, Service.batchFile]
    rcases hload : Records.loadAt location s w with ⟨f | rs, s', w'⟩
    · obtain ⟨rfl, -⟩ := Records.eq_of_loadAt hload
      rw [bind_of_error _ hload]
    · obtain ⟨rfl, -⟩ := Records.eq_of_loadAt hload
      rw [bind_of_ok _ hload]
      cases rs with
      | nil => rfl
      | cons record rest => exact absurd (.batchFile ds fs hload) (h w')

end Service

end FieldCheck
