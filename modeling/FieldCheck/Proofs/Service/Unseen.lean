/-
FieldCheck.Proofs.Service.Unseen — what a service does not see of the world.

A service reads the clock, its folders, the files, and the contents that the
network has. It writes to the log and records its requests, but reads neither of
them, and in which chunks a content comes matters to no catalog. Reading the world
gives all of that, too, so this does not follow from the types: each reading has to
be shown to use the rest alone (`World.LooksLike`).

`IsUnseen R` says that worlds related by `R` differ only in what is not seen, and
that they stay related when something is logged, asked for or written. For every
such relation `Respects R` goes along the definitions, from a load of a catalog to a
batch. Two relations are of this kind: worlds that differ in the log alone, and
worlds that look alike.
-/
import FieldCheck.Proofs.Service.Loading
import FieldCheck.Service.Batch

namespace FieldCheck

open FieldCheck.Action

/-! ## What is seen -/

/-- What a reply says as a whole: a content, or why there is none. -/
def Reply.whole : Reply → Except String Content
  | .unreachable m => .error m
  | .refused m => .error m
  | .content whole _ => .ok whole

/-- What a service sees of the worlds is the same. -/
structure World.LooksLike (v w : World) : Prop where
  folders : v.folders = w.folders
  files : v.files = w.files
  clock : v.clock = w.clock
  replies : ∀ uri, (v.reply uri).whole = (w.reply uri).whole

/-- Related worlds differ only in what a service does not see, and what it does to
both of them keeps them related. -/
structure IsUnseen (R : World → World → Prop) : Prop where
  looksLike : ∀ v w, R v w → v.LooksLike w
  logged : ∀ rs v w, R v w → R (v.logged rs) (w.logged rs)
  called : ∀ c v w, R v w → R (v.called c) (w.called c)
  written : ∀ t v w, R v w → R { v with files := t } { w with files := t }

theorem isUnseen_sameButLog : IsUnseen SameButLog where
  looksLike := by
    rintro _ w ⟨past, rfl⟩
    exact ⟨rfl, rfl, rfl, fun _ => rfl⟩
  logged := by
    rintro rs _ w ⟨past, rfl⟩
    exact ⟨past ++ rs, rfl⟩
  called := by
    rintro c _ w ⟨past, rfl⟩
    exact ⟨past, rfl⟩
  written := by
    rintro t _ w ⟨past, rfl⟩
    exact ⟨past, rfl⟩

theorem World.LooksLike.readDocument_eq {v w : World} (h : v.LooksLike w) (path : String) :
    v.readDocument path = w.readDocument path := by
  rw [readDocument, readDocument, read, read, h.files, h.folders]

variable {R : World → World → Prop} (hR : IsUnseen R)

include hR

/-! ## Catalogs -/

namespace Catalogs

theorem respects_readFile (path : String) : Respects R (readFile path) :=
  .world_bind (fun v w h => by rw [(hR.looksLike v w h).readDocument_eq])
    fun _ => respects_ofExcept _

omit hR in
theorem fetch_eq (uri : String) : fetch uri = world >>= fun w =>
    changeWorld (fun w => w.called ⟨uri, fetchTimeout, false, false, none⟩) >>= fun _ =>
      ofExcept ((w.reply uri).whole.mapError (.fetchFailed uri)) := by
  funext c w
  rw [fetch, Action.world_bind, Action.world_bind]
  cases w.reply uri <;> rfl

theorem respects_fetch (uri : String) : Respects R (fetch uri) := by
  rw [fetch_eq]
  refine .world_bind (fun v w h => by rw [(hR.looksLike v w h).replies]) fun w => ?_
  exact (respects_changeWorld (hR.called _)).bind fun _ => respects_ofExcept _

theorem respects_store (path : String) (content : Content) : Respects R (store path content) := by
  refine .world_bind (fun v w h => ?_) fun w => ?_
  · have hseen := hR.looksLike v w h
    rw [hseen.folders, hseen.clock, hseen.files]
  · cases keep w.folders.cache path content w.clock w.files with
    | error f => exact respects_fail f
    | ok t => exact respects_changeWorld (hR.written t)

theorem respects_loadRemote (uri : String) : Respects R (loadRemote uri) := by
  refine .world_bind (fun v w h => ?_) fun w => respects_state.bind fun c => ?_
  · have hseen := hR.looksLike v w h
    have hfresh : ∀ maxAge path, isFresh maxAge v path = isFresh maxAge w path := by
      intro maxAge path
      rw [isFresh, isFresh, hseen.files, hseen.clock]
    simp only [hseen.folders, hfresh]
  · dsimp only
    split
    · exact (respects_log hR.logged _ _ _).bind fun _ => respects_readFile hR _
    · exact (respects_fetch hR uri).bind fun content => (respects_store hR _ content).bind fun _ =>
        respects_ofExcept _

theorem respects_loadFrom (uri : String) : Respects R (loadFrom uri) := by
  refine respects_state.bind fun c => (respects_ofExcept _).bind fun u => ?_
  split
  · exact respects_readFile hR _
  split
  · exact respects_readFile hR _
  split
  · exact respects_loadRemote hR uri
  · exact respects_fail _

theorem respects_load (asked : Value) : Respects R (load asked) := by
  refine respects_state.bind fun c => (respects_ofExcept _).bind fun name => ?_
  refine (respects_loadFrom hR _).bind fun document => (respects_ofExcept _).bind fun key => ?_
  refine .world_bind (fun v w h => by rw [(hR.looksLike v w h).clock]) fun w => ?_
  exact (respects_changeState _).bind fun _ => respects_pure _

end Catalogs

/-! ## The service -/

namespace Service

theorem respects_prepare : Respects R prepare := by
  have huse : ∀ m, Respects R (useMessages m) := fun m =>
    (respects_changeState _).bind fun _ => (respects_changeState _).bind fun _ =>
      .world_bind (fun v w h => by rw [(hR.looksLike v w h).clock]) fun w => respects_changeState _
  have hload : Respects R loadMessages := by
    refine respects_state.bind fun s => ?_
    refine ((Catalogs.respects_load hR _).onPart _ _).bind fun document => ?_
    exact (respects_ofExcept _).bind fun m => (respects_log hR.logged _ _ _).bind fun _ =>
      respects_pure m
  refine respects_state.bind fun s => ?_
  cases s.injected with
  | some m => exact huse m
  | none => exact hload.bind huse

theorem respects_reload : Respects R reload :=
  (respects_prepare hR).bind fun _ => respects_state.bind fun _ => respects_log hR.logged _ _ _

theorem respects_look : Respects R look := by
  have hold : Respects R reloadIfOld := by
    refine respects_state.bind fun s => .world_bind (fun v w h => ?_) fun w => ?_
    · rw [(hR.looksLike v w h).clock]
    dsimp only
    cases s.age w.clock with
    | none => exact respects_pure ()
    | some age =>
      dsimp only
      split
      · exact (respects_ofExcept _).bind fun m => (respects_log hR.logged _ _ _).bind fun _ =>
          respects_reload hR
      · exact respects_pure ()
  refine respects_state.bind fun s => .world_bind (fun v w h => ?_) fun w => ?_
  · rw [(hR.looksLike v w h).clock]
  split
  · exact respects_pure ()
  · exact (respects_changeState _).bind fun _ => hold

theorem respects_check (descriptors record : Value) : Respects R (check descriptors record) :=
  (respects_look hR).bind fun _ => respects_ofTraced hR.logged _

theorem respects_discover (descriptors : Value) : Respects R (discover descriptors) :=
  (respects_look hR).bind fun _ => respects_ofTraced hR.logged _

theorem respects_report (o : Outcome) : Respects R (report o) :=
  respects_state.bind fun _ => respects_ofTraced hR.logged _

theorem respects_batchList (records : List Value) (descriptors fields : Value) :
    Respects R (batchList records descriptors fields) :=
  .forEach (fun _ => (respects_check hR _ _).bind fun _ => (respects_ofExcept _).bind fun _ =>
    (respects_report hR _).bind fun _ => respects_pure _) records

/-! ## The log -/

omit hR

theorem ignoresLog_reload : IgnoresLog reload :=
  ignoresLog_iff.2 (respects_reload isUnseen_sameButLog)

/-- A check does not depend on what was logged before. -/
theorem ignoresLog_check (descriptors record : Value) : IgnoresLog (check descriptors record) :=
  ignoresLog_iff.2 (respects_check isUnseen_sameButLog descriptors record)

theorem ignoresLog_discover (descriptors : Value) : IgnoresLog (discover descriptors) :=
  ignoresLog_iff.2 (respects_discover isUnseen_sameButLog descriptors)

theorem ignoresLog_report (o : Outcome) : IgnoresLog (report o) :=
  ignoresLog_iff.2 (respects_report isUnseen_sameButLog o)

theorem ignoresLog_batchList (records : List Value) (descriptors fields : Value) :
    IgnoresLog (batchList records descriptors fields) :=
  ignoresLog_iff.2 (respects_batchList isUnseen_sameButLog records descriptors fields)

end Service

end FieldCheck
