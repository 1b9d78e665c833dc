/-
FieldCheck.Proofs.Json.Parts — what holds everywhere in a JSON value.

The parts of a value are the items of an array and the values of an object, and
everything else has none. A value occurs in another one if it can be reached from
part to part. `Everywhere p` says that `p` holds of all values that occur, and
`everywhere_iff` takes it apart by one level, the same way for every kind of value.

Two instances are needed. `IsProper` says that no object has two members of one
name, which no type rules out. The reader keeps it true: a name that comes again
takes the place of the first one (`isProper_of_scan`). `IsFinite` says that every
floating-point number is finite. That is not true of all that is read.

A value without repeated names and without numbers that are too long to be
written can be sent (`IsSendable`). All that is read can be (`isSendable_of_scan`).
-/
import FieldCheck.Proofs.Json.Reading

namespace FieldCheck

/-- A floating-point number has a value. -/
def Double.IsFinite (x : Double) : Prop := ∃ negative code h, x = .finite negative code h

namespace Json

/-! ## Parts -/

/-- The values that a value is made of. -/
def parts : Json → List Json
  | array xs => xs
  | object ms => ms.map (·.2)
  | _ => []

/-- Induction from the parts of a value to the value. -/
theorem induction_on_parts {P : Json → Prop} (h : ∀ j, (∀ v ∈ j.parts, P v) → P j) (j : Json) :
    P j := by
  refine @Json.rec P (fun xs => ∀ v ∈ xs, P v) (fun ms => ∀ m ∈ ms, P m.2) (fun m => P m.2)
    (h .null (by simp [parts])) (fun b => h (.bool b) (by simp [parts]))
    (fun n => h (.int n) (by simp [parts])) (fun x => h (.float x) (by simp [parts]))
    (fun s => h (.text s) (by simp [parts])) (fun xs hxs => h (.array xs) hxs)
    (fun ms hms => h (.object ms) ?_) (by simp) ?_ (by simp) ?_ (fun _ _ hv => hv) j
  · intro v hv
    obtain ⟨m, hm, rfl⟩ := List.mem_map.1 hv
    exact hms m hm
  · intro x xs hx hxs v hv
    rcases List.mem_cons.1 hv with rfl | hv
    · exact hx
    · exact hxs v hv
  · intro m ms hm hms v hv
    rcases List.mem_cons.1 hv with rfl | hv
    · exact hm
    · exact hms v hv

/-- A value is reached from another one, from part to part. -/
inductive Occurs (u : Json) : Json → Prop
  | here : Occurs u u
  | inside {v j : Json} (hv : v ∈ j.parts) (h : Occurs u v) : Occurs u j

/-- All values that occur in a value have a property. -/
def Everywhere (p : Json → Prop) (j : Json) : Prop := ∀ u, Occurs u j → p u

theorem everywhere_iff {p : Json → Prop} {j : Json} :
    Everywhere p j ↔ p j ∧ ∀ v ∈ j.parts, Everywhere p v := by
  constructor
  · intro h
    exact ⟨h j .here, fun v hv u hu => h u (.inside hv hu)⟩
  · rintro ⟨hj, hparts⟩ u hu
    cases hu with
    | here => exact hj
    | inside hv hu => exact hparts _ hv u hu

/-! ## Names -/

/-- The members of an object have different names. -/
def NamesDiffer : Json → Prop
  | object ms => (ms.map (·.1)).Nodup
  | _ => True

/-- No object in the value has two members of one name. -/
def IsProper (j : Json) : Prop := Everywhere NamesDiffer j

theorem isProper_of_parts_eq_nil {j : Json} (h : j.parts = []) : IsProper j := by
  rw [IsProper, everywhere_iff, h]
  refine ⟨?_, by simp⟩
  cases j with
  | object ms =>
    rw [parts, List.map_eq_nil_iff] at h
    simp [NamesDiffer, h]
  | _ => trivial

theorem isProper_array_iff (xs : List Json) : IsProper (array xs) ↔ ∀ x ∈ xs, IsProper x := by
  rw [IsProper, everywhere_iff]
  exact and_iff_right trivial

theorem isProper_object_iff (ms : List (String × Json)) :
    IsProper (object ms) ↔ (ms.map (·.1)).Nodup ∧ ∀ m ∈ ms, IsProper m.2 := by
  rw [IsProper, everywhere_iff, parts, List.forall_mem_map]
  rfl

theorem map_fst_put (name : String) (v : Json) (ms : List (String × Json)) :
    (put name v ms).map (·.1)
      = if name ∈ ms.map (·.1) then ms.map (·.1) else ms.map (·.1) ++ [name] := by
  induction ms with
  | nil => rfl
  | cons m rest ih =>
    obtain ⟨n, w⟩ := m
    rw [put]
    by_cases hn : n = name
    · simp [hn]
    · have hn' : ¬ name = n := fun e => hn e.symm
      rw [if_neg hn, List.map_cons, List.map_cons, ih]
      by_cases hmem : name ∈ rest.map (·.1) <;> simp [hn', hmem]

theorem mem_of_mem_put {name : String} {v : Json} {ms : List (String × Json)}
    {m : String × Json} (h : m ∈ put name v ms) : m = (name, v) ∨ m ∈ ms := by
  induction ms with
  | nil => exact .inl (List.mem_singleton.1 h)
  | cons first rest ih =>
    obtain ⟨n, w⟩ := first
    rw [put] at h
    split at h
    · rename_i hn
      subst hn
      rcases List.mem_cons.1 h with rfl | h
      · exact .inl rfl
      · exact .inr (List.mem_cons_of_mem _ h)
    · rcases List.mem_cons.1 h with rfl | h
      · exact .inr (by simp)
      · exact (ih h).imp_right fun hrest => List.mem_cons_of_mem _ hrest

/-- To give a name a value leaves an object proper. -/
theorem isProper_put {name : String} {v : Json} {ms : List (String × Json)} (hv : IsProper v)
    (h : IsProper (object ms)) : IsProper (object (put name v ms)) := by
  rw [isProper_object_iff] at h ⊢
  obtain ⟨hnames, hvalues⟩ := h
  constructor
  · rw [map_fst_put]
    split
    · exact hnames
    · rename_i hmem
      exact List.nodup_append.2 ⟨hnames, by simp, by
        intro a ha b hb
        rintro rfl
        exact hmem (List.mem_singleton.1 hb ▸ ha)⟩
  · intro m hm
    rcases mem_of_mem_put hm with rfl | hm
    · exact hv
    · exact hvalues m hm

/-! ## What is read is proper -/

/-- What a scanner of values returns, if it returns one, is proper. -/
def ReturnsProper (r : Scan Json) : Prop := ∀ v rest, r = .ok (v, rest) → IsProper v

theorem returnsProper_error (e : Refusal) : ReturnsProper (.error e) := nofun

theorem returnsProper_ok {v : Json} (h : IsProper v) (rest : List Char) :
    ReturnsProper (.ok (v, rest)) := by
  rintro _ _ ⟨⟩
  exact h

theorem returnsProper_scanMagnitude {negative : Bool} {cs : List Char} {r : Scan Json}
    (h : scanMagnitude negative cs = some r) : ReturnsProper r := by
  rw [scanMagnitude, Option.map_eq_some_iff] at h
  obtain ⟨⟨whole, rest⟩, -, rfl⟩ := h
  dsimp only
  split
  · split
    · exact returnsProper_ok (isProper_of_parts_eq_nil rfl) _
    · exact returnsProper_error _
  · exact returnsProper_ok (isProper_of_parts_eq_nil rfl) _

theorem returnsProper_scanAtom (cs : List Char) : ReturnsProper (scanAtom cs) := by
  unfold scanAtom
  split
  · rename_i found hfound
    obtain ⟨⟨word, v⟩, hmem, hword⟩ := List.exists_of_findSome?_eq_some hfound
    obtain ⟨rest, -, rfl⟩ := Option.map_eq_some_iff.1 hword
    have hleaf : ∀ w ∈ words, w.2.parts = [] := by
      intro w hw
      simp only [words, List.mem_cons, List.not_mem_nil, or_false] at hw
      rcases hw with rfl | rfl | rfl | rfl | rfl | rfl <;> rfl
    exact returnsProper_ok (isProper_of_parts_eq_nil (hleaf _ hmem)) rest
  · split
    · rename_i scanned hscanned
      unfold scanNumber at hscanned
      split at hscanned <;> exact returnsProper_scanMagnitude hscanned
    · exact returnsProper_error _

section

variable {fuel : Nat} (hvalue : ∀ cs, ReturnsProper (scanValue fuel cs))
  (hitems : ∀ done cs, (∀ v ∈ done, IsProper v) → ReturnsProper (scanItems fuel done cs))
  (hmembers : ∀ done cs, IsProper (object done) → ReturnsProper (scanMembers fuel done cs))

include hitems hmembers in
theorem returnsProper_scanValue_succ (cs : List Char) :
    ReturnsProper (scanValue (fuel + 1) cs) := by
  unfold scanValue
  split
  · split
    · exact returnsProper_error _
    · exact returnsProper_ok (isProper_of_parts_eq_nil rfl) _
  · split
    · exact returnsProper_ok (isProper_of_parts_eq_nil rfl) _
    · exact hitems [] _ (by simp)
  · split
    · exact returnsProper_ok (isProper_of_parts_eq_nil rfl) _
    · exact hmembers [] _ (isProper_of_parts_eq_nil rfl)
  · exact returnsProper_scanAtom cs

include hvalue hitems in
theorem returnsProper_scanItems_succ (done : List Json) (cs : List Char)
    (hdone : ∀ v ∈ done, IsProper v) : ReturnsProper (scanItems (fuel + 1) done cs) := by
  unfold scanItems
  split
  · exact returnsProper_error _
  · rename_i v rest hr
    have hdone' : ∀ u ∈ v :: done, IsProper u :=
      List.forall_mem_cons.2 ⟨hvalue cs v rest hr, hdone⟩
    split
    · refine returnsProper_ok ((isProper_array_iff _).2 fun u hu => ?_) _
      exact hdone' u (List.mem_reverse.1 hu)
    · exact hitems _ _ hdone'
    · exact returnsProper_error _

include hvalue hmembers in
theorem returnsProper_scanMembers_succ (done : List (String × Json)) (cs : List Char)
    (hdone : IsProper (object done)) : ReturnsProper (scanMembers (fuel + 1) done cs) := by
  unfold scanMembers
  split
  · split
    · exact returnsProper_error _
    · split
      · split
        · exact returnsProper_error _
        · rename_i v rest hr
          have hput : ∀ n, IsProper (object (put n v done)) := fun n =>
            isProper_put (hvalue _ v rest hr) hdone
          split
          · exact returnsProper_ok (hput _) _
          · exact hmembers _ _ (hput _)
          · exact returnsProper_error _
      · exact returnsProper_error _
  · exact returnsProper_error _

end

/-- The three scanners of values return proper values with the same fuel. -/
theorem returnsProper_scan_values (fuel : Nat) :
    (∀ cs, ReturnsProper (scanValue fuel cs))
    ∧ (∀ done cs, (∀ v ∈ done, IsProper v) → ReturnsProper (scanItems fuel done cs))
    ∧ ∀ done cs, IsProper (object done) → ReturnsProper (scanMembers fuel done cs) := by
  induction fuel with
  | zero =>
    refine ⟨fun cs => ?_, fun done cs _ => ?_, fun done cs _ => ?_⟩
    · rw [scanValue]
      exact returnsProper_error _
    · rw [scanItems]
      exact returnsProper_error _
    · rw [scanMembers]
      exact returnsProper_error _
  | succ fuel ih =>
    obtain ⟨hvalue, hitems, hmembers⟩ := ih
    exact ⟨returnsProper_scanValue_succ hitems hmembers,
      returnsProper_scanItems_succ hvalue hitems, returnsProper_scanMembers_succ hvalue hmembers⟩

/-- A value that is read has no object with two members of one name. -/
theorem isProper_of_scan {cs : List Char} {v : Json} (h : scan cs = .ok v) : IsProper v := by
  unfold scan at h
  split at h
  · cases h
  · split at h
    · cases h
    · rename_i u rest hr
      split at h
      · cases h
        exact (returnsProper_scan_values _).1 _ _ _ hr
      · cases h

/-! ## Finite numbers -/

/-- A floating-point number is finite. Of other values nothing is asked. -/
def HasFiniteFloat : Json → Prop
  | float x => x.IsFinite
  | _ => True

/-- Every floating-point number in the value is finite. -/
def IsFinite (j : Json) : Prop := Everywhere HasFiniteFloat j

theorem isFinite_array_iff (xs : List Json) : IsFinite (array xs) ↔ ∀ x ∈ xs, IsFinite x := by
  rw [IsFinite, everywhere_iff]
  exact and_iff_right trivial

theorem isFinite_object_iff (ms : List (String × Json)) :
    IsFinite (object ms) ↔ ∀ m ∈ ms, IsFinite m.2 := by
  rw [IsFinite, everywhere_iff, parts, List.forall_mem_map]
  exact and_iff_right trivial

/-- A member of an object is as finite as the object. -/
theorem IsFinite.member {ms : List (String × Json)} (h : IsFinite (object ms)) {name : String}
    {v : Json} (hv : member name ms = some v) : IsFinite v := by
  rw [Json.member, Option.map_eq_some_iff] at hv
  obtain ⟨m, hfind, rfl⟩ := hv
  exact (isFinite_object_iff ms).1 h m (List.mem_of_find?_eq_some hfind)

/-! ## What can be sent -/

/-- A value that a sender writes and a reader gets back. -/
structure IsSendable (j : Json) : Prop where
  proper : IsProper j
  writable : j.toValue.isWritable = true

theorem isSendable_of_scan {cs : List Char} {v : Json} (h : scan cs = .ok v) : IsSendable v :=
  ⟨isProper_of_scan h, isWritable_of_scan h⟩

theorem isSendable_array_iff (xs : List Json) :
    IsSendable (array xs) ↔ ∀ x ∈ xs, IsSendable x := by
  constructor
  · rintro ⟨hproper, hwritable⟩ x hx
    exact ⟨(isProper_array_iff xs).1 hproper x hx, (isWritable_array_iff xs).1 hwritable x hx⟩
  · intro h
    exact ⟨(isProper_array_iff xs).2 fun x hx => (h x hx).proper,
      (isWritable_array_iff xs).2 fun x hx => (h x hx).writable⟩

theorem isSendable_object_iff (ms : List (String × Json)) :
    IsSendable (object ms) ↔ (ms.map (·.1)).Nodup ∧ ∀ m ∈ ms, IsSendable m.2 := by
  constructor
  · rintro ⟨hproper, hwritable⟩
    rw [isProper_object_iff] at hproper
    rw [isWritable_object_iff] at hwritable
    exact ⟨hproper.1, fun m hm => ⟨hproper.2 m hm, hwritable m hm⟩⟩
  · rintro ⟨hnames, h⟩
    exact ⟨(isProper_object_iff ms).2 ⟨hnames, fun m hm => (h m hm).proper⟩,
      (isWritable_object_iff ms).2 fun m hm => (h m hm).writable⟩

/-- A member of an object can be sent if the object can. -/
theorem IsSendable.member {ms : List (String × Json)} (h : IsSendable (object ms)) {name : String}
    {v : Json} (hv : Json.member name ms = some v) : IsSendable v := by
  rw [Json.member, Option.map_eq_some_iff] at hv
  obtain ⟨m, hfind, rfl⟩ := hv
  exact ((isSendable_object_iff ms).1 h).2 m (List.mem_of_find?_eq_some hfind)

/-- A value that can be sent and holds no number that is not finite. -/
structure IsPlain (j : Json) : Prop extends IsSendable j where
  finite : IsFinite j

theorem isPlain_null : IsPlain null :=
  ⟨⟨isProper_of_parts_eq_nil rfl, rfl⟩, everywhere_iff.2 ⟨trivial, nofun⟩⟩

theorem isPlain_bool (b : Bool) : IsPlain (bool b) :=
  ⟨⟨isProper_of_parts_eq_nil rfl, rfl⟩, everywhere_iff.2 ⟨trivial, nofun⟩⟩

theorem isPlain_int {n : Int} (h : Decimal.isWritable n = true) : IsPlain (int n) :=
  ⟨⟨isProper_of_parts_eq_nil rfl, h⟩, everywhere_iff.2 ⟨trivial, nofun⟩⟩

theorem isPlain_text (s : String) : IsPlain (text s) :=
  ⟨⟨isProper_of_parts_eq_nil rfl, rfl⟩, everywhere_iff.2 ⟨trivial, nofun⟩⟩

theorem isPlain_array {xs : List Json} (h : ∀ x ∈ xs, IsPlain x) : IsPlain (array xs) :=
  ⟨(isSendable_array_iff xs).2 fun x hx => (h x hx).toIsSendable,
    (isFinite_array_iff xs).2 fun x hx => (h x hx).finite⟩

theorem isPlain_texts (ss : List String) : IsPlain (texts ss) :=
  isPlain_array (List.forall_mem_map.2 fun s _ => isPlain_text s)

theorem isPlain_object {ms : List (String × Json)} (hnames : (ms.map (·.1)).Nodup)
    (h : ∀ m ∈ ms, IsPlain m.2) : IsPlain (object ms) :=
  ⟨(isSendable_object_iff ms).2 ⟨hnames, fun m hm => (h m hm).toIsSendable⟩,
    (isFinite_object_iff ms).2 fun m hm => (h m hm).finite⟩

end Json

end FieldCheck
