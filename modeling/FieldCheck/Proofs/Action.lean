/-
FieldCheck.Proofs.Action — single steps, and what an action leaves as it is.

A sequence that begins with a single step goes on behind it: one equation for
each step says with which state and in which world.

`Keeps p x` says that the action `x` does not change what `p` reads from the
state and the world, whether it has a result or a fault. The reading is a
parameter: the whole state, a field of it, the clock, the files. Nothing is
undone when an action fails, so the property is put together from its steps
alone, by `Keeps.bind` and one lemma for each single step.

`Respects R x` compares two runs of one action, in worlds that are related by `R`:
they have the same result, and the worlds stay related. It is put together in the
same way, except that the steps behind a reading of the world have to be the same
in both runs. `IgnoresLog x` is the case of worlds that differ in the log alone.

`Yields P x` is about results alone: whenever `x` has one, it has the property
`P`. Where a fault arises says nothing about it.

`FailsOnly I P x` is about faults: from a state with `I` the action leads to
another one with `I`, and every fault of it has the property `P`.

`ActsAs I t x` replaces an action by a computation that knows neither a state nor a
world: from a state with `I` the action leads to another one with `I`, has the result
of `t`, and does to the world nothing but to log what `t` logs. The steps behind a
reading of the world then have to be the same in all worlds, as far as this goes.
-/
import FieldCheck.Action

namespace FieldCheck.Action

variable {σ τ α β γ : Type}

/-! ## Sequences that begin with a single step -/

section Steps

variable (s : σ) (w : World)

@[simp] theorem state_bind (f : σ → Action σ β) : (state >>= f) s w = f s s w := rfl

@[simp] theorem world_bind (f : World → Action σ β) : (world >>= f) s w = f w s w := rfl

@[simp] theorem changeState_bind (g : σ → σ) (f : Unit → Action σ β) :
    (changeState g >>= f) s w = f () (g s) w := rfl

@[simp] theorem log_bind (level : Level) (channel : Channel) (message : String)
    (f : Unit → Action σ β) :
    (log level channel message >>= f) s w = f () s (w.logged [⟨level, channel, message⟩]) := rfl

@[simp] theorem ofExcept_ok_bind (a : α) (f : α → Action σ β) :
    (ofExcept (.ok a) >>= f) s w = f a s w := rfl

@[simp] theorem ofExcept_error_bind (e : Fault) (f : α → Action σ β) :
    (ofExcept (.error e) >>= f) s w = (.error e, s, w) := rfl

end Steps

theorem bind_assoc (x : Action σ α) (f : α → Action σ β) (g : β → Action σ γ) :
    (x >>= f) >>= g = x >>= fun a => f a >>= g := by
  funext s w
  rcases h : x s w with ⟨e | a, s', w'⟩
  · rw [bind_of_error _ h, bind_of_error _ (bind_of_error f h)]
  · rw [bind_of_ok _ h]
    rcases hf : f a s' w' with ⟨e | b, s'', w''⟩
    · rw [bind_of_error _ hf, bind_of_error _ ((bind_of_ok f h).trans hf)]
    · rw [bind_of_ok _ hf, bind_of_ok _ ((bind_of_ok f h).trans hf)]

theorem bind_pure (x : Action σ α) : (x >>= pure) = x := by
  funext s w
  rcases h : x s w with ⟨e | a, s', w'⟩
  · exact bind_of_error _ h
  · exact bind_of_ok _ h

/-- Where a first part is the same, so is the sequence. -/
theorem bind_of_eq {x : Action σ α} {s s' : σ} {w w' : World} (f : α → Action σ β)
    (h : x s w = x s' w') : (x >>= f) s w = (x >>= f) s' w' := by
  show andThen x f s w = andThen x f s' w'
  rw [andThen, andThen, h]

/-- A result or a fault with nothing logged. -/
theorem ofTraced_ofExcept (x : Except Fault α) :
    (ofTraced (Traced.ofExcept x) : Action σ α) = ofExcept x := by
  funext s w
  show (x, s, w.logged []) = (x, s, w)
  rw [World.logged_nil]

/-- Logging computations in a row are one such computation, if each of them is in the
state that all of them begin in. -/
theorem ofTraced_bind {t : Traced α} {f : α → Action σ β} {g : α → Traced β} {s : σ}
    (h : ∀ a w, f a s w = ofTraced (g a) s w) (w : World) :
    (ofTraced t >>= f) s w = ofTraced (t >>= g) s w := by
  cases ht : t.result with
  | error e =>
    have hfirst : ofTraced t s w = (.error e, s, w.logged t.log) := by rw [ofTraced, ht]
    rw [bind_of_error f hfirst, ofTraced, Traced.result_bind_error g ht, Traced.log_bind_error g ht]
  | ok a =>
    have hfirst : ofTraced t s w = (.ok a, s, w.logged t.log) := by rw [ofTraced, ht]
    rw [bind_of_ok f hfirst, h, ofTraced, ofTraced, World.logged_logged,
      Traced.result_bind_ok g ht, Traced.log_bind_ok g ht]

/-- Steps for a list are those for its first part and then those for the others. -/
theorem forEach_append (f : α → Action σ β) (as bs : List α) : forEach f (as ++ bs)
    = forEach f as >>= fun first => forEach f bs >>= fun others => pure (first ++ others) := by
  induction as with
  | nil => exact (bind_pure _).symm
  | cons a rest ih =>
    rw [List.cons_append, forEach, forEach, ih, bind_assoc]
    congr 1
    funext b
    simp only [bind_assoc]
    rfl

/-- Steps after which the state is the same, whether the first one has a result or not. -/
theorem forEach_cons_state {f : α → Action σ β} {a : α} {rest : List α} {s s' : σ} {w : World}
    (hfirst : (f a s w).2.1 = s') (hrest : (forEach f rest s' (f a s w).2.2).2.1 = s') :
    (forEach f (a :: rest) s w).2.1 = s' := by
  rw [forEach]
  rcases hf : f a s w with ⟨e | b, s₁, w₁⟩
  · rw [hf] at hfirst
    rw [bind_of_error _ hf]
    exact hfirst
  · rw [hf] at hfirst hrest
    obtain rfl : s₁ = s' := hfirst
    rw [bind_of_ok _ hf]
    rcases hothers : forEach f rest s₁ w₁ with ⟨e | bs, s₂, w₂⟩
    · rw [hothers] at hrest
      rw [bind_of_error _ hothers]
      exact hrest
    · rw [hothers] at hrest
      rw [bind_of_ok _ hothers]
      exact hrest

/-- Steps that each leave a state as it is leave it so together, as long as the
worlds in which they are taken have what the steps need for that. -/
theorem forEach_state {f : α → Action σ β} {s : σ} {P : World → Prop}
    (h : ∀ a w, P w → (f a s w).2.1 = s ∧ P (f a s w).2.2) (as : List α) {w : World} (hw : P w) :
    (forEach f as s w).2.1 = s := by
  induction as generalizing w with
  | nil => rfl
  | cons a rest ih =>
    obtain ⟨hstate, hworld⟩ := h a w hw
    exact forEach_cons_state hstate (ih hworld)

/-- What holds of the state behind each step holds of the state behind all steps. -/
theorem forEach_state_of {f : α → Action σ β} {P : σ → Prop}
    (h : ∀ a s w, P s → P (f a s w).2.1) (as : List α) {s : σ} {w : World} (hs : P s) :
    P (forEach f as s w).2.1 := by
  induction as generalizing s w with
  | nil => exact hs
  | cons a rest ih =>
    rw [forEach]
    have hfirst := h a s w hs
    rcases hf : f a s w with ⟨e | b, s₁, w₁⟩
    · rw [bind_of_error _ hf]
      rw [hf] at hfirst
      exact hfirst
    · rw [hf] at hfirst
      rw [bind_of_ok _ hf]
      have hothers := ih (w := w₁) hfirst
      rcases ho : forEach f rest s₁ w₁ with ⟨e | bs, s₂, w₂⟩
      · rw [ho] at hothers
        rw [bind_of_error _ ho]
        exact hothers
      · rw [ho] at hothers
        rw [bind_of_ok _ ho]
        exact hothers

/-! ## What is left as it is -/

/-- The action does not change what is read from the state and the world. -/
def Keeps (p : σ → World → γ) (x : Action σ α) : Prop := ∀ s w, p (x s w).2.1 (x s w).2.2 = p s w

theorem Keeps.bind {p : σ → World → γ} {x : Action σ α} {f : α → Action σ β} (hx : Keeps p x)
    (hf : ∀ a, Keeps p (f a)) : Keeps p (x >>= f) := by
  intro s w
  have hfirst := hx s w
  rcases h : x s w with ⟨e | a, s', w'⟩
  · rw [h] at hfirst
    rw [bind_of_error f h]
    exact hfirst
  · rw [h] at hfirst
    rw [bind_of_ok f h]
    exact (hf a s' w').trans hfirst

/-- Behind an action, steps that change nothing of the state do not matter for it. -/
theorem state_bind_of_keeps {f : α → Action σ β} (hf : ∀ a, Keeps (fun s _ => s) (f a))
    (x : Action σ α) (s : σ) (w : World) : ((x >>= f) s w).2.1 = (x s w).2.1 := by
  rcases h : x s w with ⟨e | a, s', w'⟩
  · rw [bind_of_error f h]
  · rw [bind_of_ok f h]
    exact hf a s' w'

theorem keeps_pure (p : σ → World → γ) (a : α) : Keeps p (pure a : Action σ α) := fun _ _ => rfl

theorem keeps_fail (p : σ → World → γ) (f : Fault) : Keeps p (fail f : Action σ α) := fun _ _ => rfl

theorem keeps_state (p : σ → World → γ) : Keeps p state := fun _ _ => rfl

theorem keeps_world (p : σ → World → γ) : Keeps p world := fun _ _ => rfl

theorem keeps_ofExcept (p : σ → World → γ) (x : Except Fault α) : Keeps p (ofExcept x) :=
  fun _ _ => rfl

theorem keeps_changeState {p : σ → World → γ} {f : σ → σ} (h : ∀ s w, p (f s) w = p s w) :
    Keeps p (changeState f) := h

theorem keeps_changeWorld {p : σ → World → γ} {f : World → World} (h : ∀ s w, p s (f w) = p s w) :
    Keeps p (changeWorld f) := h

theorem keeps_log {p : σ → World → γ} (h : ∀ s w rs, p s (w.logged rs) = p s w) (level : Level)
    (channel : Channel) (message : String) : Keeps p (log level channel message) :=
  fun s w => h s w _

theorem keeps_ofTraced {p : σ → World → γ} (h : ∀ s w rs, p s (w.logged rs) = p s w)
    (t : Traced α) : Keeps p (ofTraced t) := fun s w => h s w t.log

/-- To give another result changes nothing else. -/
theorem end_bind_pure (x : Action σ α) (f : α → β) (s : σ) (w : World) :
    ((x >>= fun a => pure (f a)) s w).2 = (x s w).2 := by
  rcases hx : x s w with ⟨e | a, s', w'⟩
  · rw [bind_of_error _ hx]
  · rw [bind_of_ok _ hx]
    rfl

theorem state_bind_pure (x : Action σ α) (b : β) (s : σ) (w : World) :
    ((x >>= fun _ => pure b) s w).2.1 = (x s w).2.1 := by
  rw [end_bind_pure x fun _ => b]

/-- What each step keeps, all steps keep. -/
theorem Keeps.forEach {p : σ → World → γ} {f : α → Action σ β} (hf : ∀ a, Keeps p (f a))
    (as : List α) : Keeps p (forEach f as) := by
  induction as with
  | nil => exact keeps_pure p []
  | cons a rest ih => exact (hf a).bind fun first => ih.bind fun others => keeps_pure p _

/-! ## Two runs -/

/-- In two related worlds the action has the same result, and it leaves the same
state and related worlds behind. -/
def Respects (R : World → World → Prop) (x : Action σ α) : Prop :=
  ∀ s v w, R v w → (x s v).1 = (x s w).1 ∧ (x s v).2.1 = (x s w).2.1 ∧ R (x s v).2.2 (x s w).2.2

section Respects

variable {R : World → World → Prop}

theorem Respects.bind {x : Action σ α} {f : α → Action σ β} (hx : Respects R x)
    (hf : ∀ a, Respects R (f a)) : Respects R (x >>= f) := by
  intro s v w h
  obtain ⟨hresult, hstate, hworld⟩ := hx s v w h
  rcases hv : x s v with ⟨r, s', v'⟩
  rcases hw : x s w with ⟨r', s'', w'⟩
  rw [hv, hw] at hresult hstate hworld
  dsimp only at hresult hstate hworld
  subst hresult hstate
  cases r with
  | error e =>
    rw [bind_of_error f hv, bind_of_error f hw]
    exact ⟨rfl, rfl, hworld⟩
  | ok a =>
    rw [bind_of_ok f hv, bind_of_ok f hw]
    exact hf a s' v' w' hworld

/-- Steps behind a reading of the world that are the same in related worlds. -/
theorem Respects.world_bind {f : World → Action σ β} (hsame : ∀ v w, R v w → f v = f w)
    (hf : ∀ w, Respects R (f w)) : Respects R (world >>= f) := by
  intro s v w h
  rw [Action.world_bind, Action.world_bind, hsame v w h]
  exact hf w s v w h

theorem respects_pure (a : α) : Respects R (pure a : Action σ α) := fun _ _ _ h => ⟨rfl, rfl, h⟩

theorem respects_fail (f : Fault) : Respects R (fail f : Action σ α) := fun _ _ _ h => ⟨rfl, rfl, h⟩

theorem respects_state : Respects R (state : Action σ σ) := fun _ _ _ h => ⟨rfl, rfl, h⟩

theorem respects_ofExcept (x : Except Fault α) : Respects R (ofExcept x : Action σ α) :=
  fun _ _ _ h => ⟨rfl, rfl, h⟩

theorem respects_changeState (f : σ → σ) : Respects R (changeState f) := fun _ _ _ h => ⟨rfl, rfl, h⟩

theorem respects_changeWorld {f : World → World} (hf : ∀ v w, R v w → R (f v) (f w)) :
    Respects R (changeWorld f : Action σ Unit) := fun _ v w h => ⟨rfl, rfl, hf v w h⟩

theorem respects_ofTraced (hR : ∀ rs v w, R v w → R (v.logged rs) (w.logged rs)) (t : Traced α) :
    Respects R (ofTraced t : Action σ α) := fun _ v w h => ⟨rfl, rfl, hR t.log v w h⟩

theorem respects_log (hR : ∀ rs v w, R v w → R (v.logged rs) (w.logged rs)) (level : Level)
    (channel : Channel) (message : String) :
    Respects R (log level channel message : Action σ Unit) := respects_changeWorld (hR _)

theorem Respects.forEach {f : α → Action σ β} (hf : ∀ a, Respects R (f a)) (as : List α) :
    Respects R (forEach f as) := by
  induction as with
  | nil => exact respects_pure []
  | cons a rest ih => exact (hf a).bind fun first => ih.bind fun others => respects_pure _

theorem Respects.onPart {x : Action τ α} (hx : Respects R x) (get : σ → τ) (put : τ → σ → σ) :
    Respects R (onPart get put x) := by
  intro s v w h
  obtain ⟨hresult, hstate, hworld⟩ := hx (get s) v w h
  exact ⟨hresult, congrArg (put · s) hstate, hworld⟩

end Respects

/-! ## What has no influence -/

/-- In two worlds that differ only in what was logged, the action has the same
result and leaves the same state behind, and worlds that differ only in that. -/
def IgnoresLog (x : Action σ α) : Prop :=
  ∀ s w past, ∃ log, x s { w with log := past }
    = ((x s w).1, (x s w).2.1, { (x s w).2.2 with log := log })

/-- The worlds differ only in what was logged. -/
def SameButLog (v w : World) : Prop := ∃ past, v = { w with log := past }

theorem ignoresLog_iff {x : Action σ α} : IgnoresLog x ↔ Respects SameButLog x := by
  constructor
  · rintro h s _ w ⟨past, rfl⟩
    obtain ⟨log, hlog⟩ := h s w past
    rw [hlog]
    exact ⟨rfl, rfl, log, rfl⟩
  · intro h s w past
    obtain ⟨hresult, hstate, log, hlog⟩ := h s { w with log := past } w ⟨past, rfl⟩
    exact ⟨log, Prod.ext hresult (Prod.ext hstate hlog)⟩

theorem IgnoresLog.of_eq {x : Action σ α} (h : IgnoresLog x) {s s' : σ} {w w' : World}
    {r : Except Fault α} (hx : x s w = (r, s', w')) (past : List LogRecord) :
    ∃ log, x s { w with log := past } = (r, s', { w' with log := log }) := by
  obtain ⟨log, hlog⟩ := h s w past
  rw [hx] at hlog
  exact ⟨log, hlog⟩

theorem IgnoresLog.bind {x : Action σ α} {f : α → Action σ β} (hx : IgnoresLog x)
    (hf : ∀ a, IgnoresLog (f a)) : IgnoresLog (x >>= f) :=
  ignoresLog_iff.2 ((ignoresLog_iff.1 hx).bind fun a => ignoresLog_iff.1 (hf a))

/-- Steps behind a reading of the world that do not use the log. -/
theorem IgnoresLog.world_bind {f : World → Action σ β}
    (hsame : ∀ w past, f { w with log := past } = f w) (hf : ∀ w, IgnoresLog (f w)) :
    IgnoresLog (world >>= f) := by
  refine ignoresLog_iff.2 (.world_bind ?_ fun w => ignoresLog_iff.1 (hf w))
  rintro _ w ⟨past, rfl⟩
  exact hsame w past

theorem ignoresLog_pure (a : α) : IgnoresLog (pure a : Action σ α) := fun _ _ _ => ⟨_, rfl⟩

theorem ignoresLog_fail (f : Fault) : IgnoresLog (fail f : Action σ α) := fun _ _ _ => ⟨_, rfl⟩

theorem ignoresLog_state : IgnoresLog (state : Action σ σ) := fun _ _ _ => ⟨_, rfl⟩

theorem ignoresLog_ofExcept (x : Except Fault α) : IgnoresLog (ofExcept x : Action σ α) :=
  fun _ _ _ => ⟨_, rfl⟩

theorem ignoresLog_log (level : Level) (channel : Channel) (message : String) :
    IgnoresLog (log level channel message : Action σ Unit) := fun _ _ _ => ⟨_, rfl⟩

theorem ignoresLog_changeWorld {f : World → World}
    (h : ∀ w past, f { w with log := past } = { f w with log := past }) :
    IgnoresLog (changeWorld f : Action σ Unit) := by
  intro s w past
  exact ⟨past, by rw [changeWorld, changeWorld, h]⟩

theorem IgnoresLog.forEach {f : α → Action σ β} (hf : ∀ a, IgnoresLog (f a)) (as : List α) :
    IgnoresLog (forEach f as) := ignoresLog_iff.2 (.forEach (fun a => ignoresLog_iff.1 (hf a)) as)

theorem IgnoresLog.onPart {x : Action τ α} (hx : IgnoresLog x) (get : σ → τ) (put : τ → σ → σ) :
    IgnoresLog (onPart get put x) := ignoresLog_iff.2 ((ignoresLog_iff.1 hx).onPart get put)

/-! ## What results have in common -/

/-- Every result of the action has a property. -/
def Yields (P : α → Prop) (x : Action σ α) : Prop := ∀ s w a, (x s w).1 = .ok a → P a

theorem Yields.bind {P : β → Prop} {Q : α → Prop} {x : Action σ α} {f : α → Action σ β}
    (hx : Yields Q x) (hf : ∀ a, Q a → Yields P (f a)) : Yields P (x >>= f) := by
  intro s w b hb
  rcases h : x s w with ⟨e | a, s', w'⟩
  · rw [bind_of_error f h] at hb
    cases hb
  · rw [bind_of_ok f h] at hb
    exact hf a (hx s w a (by rw [h])) s' w' b hb

/-- Nothing has to be known about the first result. -/
theorem Yields.behind {P : β → Prop} (x : Action σ α) {f : α → Action σ β}
    (hf : ∀ a, Yields P (f a)) : Yields P (x >>= f) := by
  have hx : Yields (fun _ => True) x := fun _ _ _ _ => trivial
  exact hx.bind fun a _ => hf a

theorem yields_pure {P : α → Prop} {a : α} (h : P a) : Yields P (pure a : Action σ α) := by
  rintro s w b ⟨⟩
  exact h

theorem yields_ofTraced {P : α → Prop} {t : Traced α} (h : ∀ a, t.result = .ok a → P a) :
    Yields P (ofTraced t : Action σ α) := fun _ _ a ha => h a ha

/-- A sequence that has a result goes through one of its first part. -/
theorem of_bind_ok {x : Action σ α} {f : α → Action σ β} {s s' : σ} {w w' : World} {b : β}
    (h : (x >>= f) s w = (.ok b, s', w')) :
    ∃ a s₁ w₁, x s w = (.ok a, s₁, w₁) ∧ f a s₁ w₁ = (.ok b, s', w') := by
  rcases hx : x s w with ⟨e | a, s₁, w₁⟩
  · rw [bind_of_error f hx] at h
    cases h
  · rw [bind_of_ok f hx] at h
    exact ⟨a, s₁, w₁, rfl, h⟩

/-- A sequence fails where its first part does, or behind it. -/
theorem of_bind_error {x : Action σ α} {f : α → Action σ β} {s s' : σ} {w w' : World} {e : Fault}
    (h : (x >>= f) s w = (.error e, s', w')) :
    x s w = (.error e, s', w')
      ∨ ∃ a s₁ w₁, x s w = (.ok a, s₁, w₁) ∧ f a s₁ w₁ = (.error e, s', w') := by
  rcases hx : x s w with ⟨e' | a, s₁, w₁⟩
  · rw [bind_of_error f hx] at h
    cases h
    exact .inl rfl
  · rw [bind_of_ok f hx] at h
    exact .inr ⟨a, s₁, w₁, rfl, h⟩

/-! ## What faults have in common -/

/-- From states with a property the action leads to such states, and every fault
of it there has another property. -/
def FailsOnly (I : σ → Prop) (P : Fault → Prop) (x : Action σ α) : Prop :=
  ∀ s w, I s → I (x s w).2.1 ∧ ∀ f, (x s w).1 = .error f → P f

section FailsOnly

variable {I : σ → Prop} {P : Fault → Prop}

theorem FailsOnly.bind {x : Action σ α} {f : α → Action σ β} (hx : FailsOnly I P x)
    (hf : ∀ a, FailsOnly I P (f a)) : FailsOnly I P (x >>= f) := by
  intro s w hs
  obtain ⟨hstate, hfault⟩ := hx s w hs
  rcases h : x s w with ⟨e | a, s', w'⟩
  · rw [h] at hstate hfault
    rw [bind_of_error f h]
    refine ⟨hstate, ?_⟩
    rintro _ ⟨⟩
    exact hfault e rfl
  · rw [h] at hstate
    rw [bind_of_ok f h]
    exact hf a s' w' hstate

/-- Behind a reading of the state, the state is known to have the property. -/
theorem FailsOnly.state_bind {f : σ → Action σ β} (hf : ∀ s, I s → FailsOnly I P (f s)) :
    FailsOnly I P (state >>= f) := fun s w hs => hf s hs s w hs

theorem failsOnly_world : FailsOnly I P (world : Action σ World) := fun _ _ hs => ⟨hs, nofun⟩

theorem failsOnly_pure (a : α) : FailsOnly I P (pure a : Action σ α) := fun _ _ hs => ⟨hs, nofun⟩

theorem failsOnly_ofExcept {x : Except Fault α} (h : ∀ f, x = .error f → P f) :
    FailsOnly I P (ofExcept x : Action σ α) := fun _ _ hs => ⟨hs, h⟩

theorem failsOnly_fail {f : Fault} (h : P f) : FailsOnly I P (fail f : Action σ α) := by
  refine fun _ _ hs => ⟨hs, ?_⟩
  rintro _ ⟨⟩
  exact h

theorem failsOnly_ofTraced {t : Traced α} (h : ∀ f, t.result = .error f → P f) :
    FailsOnly I P (ofTraced t : Action σ α) := fun _ _ hs => ⟨hs, h⟩

theorem failsOnly_log (level : Level) (channel : Channel) (message : String) :
    FailsOnly I P (log level channel message : Action σ Unit) := fun _ _ hs => ⟨hs, nofun⟩

theorem failsOnly_changeWorld (f : World → World) :
    FailsOnly I P (changeWorld f : Action σ Unit) := fun _ _ hs => ⟨hs, nofun⟩

theorem failsOnly_changeState {f : σ → σ} (h : ∀ s, I s → I (f s)) :
    FailsOnly I P (changeState f) := fun s _ hs => ⟨h s hs, nofun⟩

theorem FailsOnly.forEach {f : α → Action σ β} (hf : ∀ a, FailsOnly I P (f a)) (as : List α) :
    FailsOnly I P (forEach f as) := by
  induction as with
  | nil => exact failsOnly_pure []
  | cons a rest ih => exact (hf a).bind fun first => ih.bind fun others => failsOnly_pure _

end FailsOnly

/-! ## Actions that only log -/

/-- From states with a property the action leads to such states, and for a caller it
is the computation. -/
def ActsAs (I : σ → Prop) (t : Traced α) (x : Action σ α) : Prop :=
  ∀ s w, I s → ∃ s', I s' ∧ x s w = (t.result, s', w.logged t.log)

section ActsAs

variable {I : σ → Prop}

theorem ActsAs.bind {t : Traced α} {x : Action σ α} {g : α → Traced β} {f : α → Action σ β}
    (hx : ActsAs I t x) (hf : ∀ a, ActsAs I (g a) (f a)) : ActsAs I (t >>= g) (x >>= f) := by
  intro s w hs
  obtain ⟨s₁, hs₁, hfirst⟩ := hx s w hs
  cases ht : t.result with
  | error e =>
    rw [ht] at hfirst
    rw [Traced.result_bind_error g ht, Traced.log_bind_error g ht]
    exact ⟨s₁, hs₁, bind_of_error f hfirst⟩
  | ok a =>
    rw [ht] at hfirst
    obtain ⟨s₂, hs₂, hsecond⟩ := hf a s₁ (w.logged t.log) hs₁
    rw [Traced.result_bind_ok g ht, Traced.log_bind_ok g ht, ← World.logged_logged]
    exact ⟨s₂, hs₂, (bind_of_ok f hfirst).trans hsecond⟩

/-- An action that cannot be told from doing nothing may stand in front of another one. -/
theorem ActsAs.behind {t : Traced β} {x : Action σ Unit} {f : Unit → Action σ β}
    (hx : ActsAs I (pure ()) x) (hf : ∀ u, ActsAs I t (f u)) : ActsAs I t (x >>= f) := hx.bind hf

/-- Behind a reading of the state, the state is known to have the property. -/
theorem ActsAs.state_bind {t : Traced β} {f : σ → Action σ β} (hf : ∀ s, I s → ActsAs I t (f s)) :
    ActsAs I t (state >>= f) := fun s w hs => hf s hs s w hs

/-- Behind a reading of the world, the steps must not depend on it. -/
theorem ActsAs.world_bind {t : Traced β} {f : World → Action σ β} (hf : ∀ w, ActsAs I t (f w)) :
    ActsAs I t (world >>= f) := fun s w hs => hf w s w hs

theorem actsAs_ofTraced (t : Traced α) : ActsAs I t (ofTraced t) := fun s _ hs => ⟨s, hs, rfl⟩

theorem actsAs_ofExcept (x : Except Fault α) : ActsAs I (Traced.ofExcept x) (ofExcept x) := by
  rw [← ofTraced_ofExcept]
  exact actsAs_ofTraced _

theorem actsAs_pure (a : α) : ActsAs I (pure a) (pure a) := actsAs_ofExcept (.ok a)

theorem actsAs_log (level : Level) (channel : Channel) (message : String) :
    ActsAs I (Traced.write ⟨level, channel, message⟩) (log level channel message) :=
  fun s _ hs => ⟨s, hs, rfl⟩

/-- A change of the state that keeps the property cannot be told from doing nothing. -/
theorem actsAs_changeState {f : σ → σ} (h : ∀ s, I s → I (f s)) :
    ActsAs I (pure ()) (changeState f) :=
  fun s w hs => ⟨f s, h s hs, by rw [Traced.log_pure, World.logged_nil]; rfl⟩

theorem ActsAs.forEach {g : α → Traced β} {f : α → Action σ β} (hf : ∀ a, ActsAs I (g a) (f a))
    (as : List α) : ActsAs I (as.mapM' g) (forEach f as) := by
  induction as with
  | nil => exact actsAs_pure []
  | cons a rest ih => exact (hf a).bind fun first => ih.bind fun others => actsAs_pure _

end ActsAs

end FieldCheck.Action
