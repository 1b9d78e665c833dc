/-
FieldCheck.Proofs.Json.Reading — what the reader of JSON returns.

Three things are true of every scanner and are proved together, because each
needs the others: what is left is a suffix of what was given, the value that
is returned holds only whole numbers that can be written, and a refusal for
too many digits comes from a run of that many digits in the text. `Sound` says
all three of what a scanner of values returns for some characters.

Two statements about whole texts follow. A value that is read can be written
in full (`isWritable_of_scan`), and a text without a run of more digits than
can be read is never refused for its digits (`hasLongRun_of_scan`).
-/
import FieldCheck.Json.Reader
import FieldCheck.Value.Display

namespace FieldCheck.Json

/-! ## Runs of digits -/

/-- More digits than can be read stand next to each other, and no digit behind them. -/
def HasLongRun (cs : List Char) (n : Nat) : Prop :=
  Decimal.digitLimit < n ∧ ∃ front run back, cs = front ++ (run ++ back) ∧ run.length = n
    ∧ (∀ c ∈ run, c.isDigit = true) ∧ ∀ c ∈ back.head?, c.isDigit = false

theorem HasLongRun.mono {cs rest : List Char} {n : Nat} (h : HasLongRun rest n)
    (hrest : rest <:+ cs) : HasLongRun cs n := by
  obtain ⟨hn, front, run, back, rfl, hrun⟩ := h
  obtain ⟨before, rfl⟩ := hrest
  exact ⟨hn, before ++ front, run, back, by rw [List.append_assoc], hrun⟩

/-! ## What scanners leave -/

theorem skipGap_suffix (cs : List Char) : skipGap cs <:+ cs := List.dropWhile_suffix _

theorem suffix_of_spanDigits {cs ds rest : List Char} (h : spanDigits cs = (ds, rest)) :
    rest <:+ cs := by
  cases h
  exact List.dropWhile_suffix _

theorem suffix_of_scanWhole {cs ds rest : List Char} (h : scanWhole cs = some (ds, rest)) :
    rest <:+ cs := by
  unfold scanWhole at h
  split at h
  · cases h
    exact List.suffix_cons _ _
  · split at h
    · exact suffix_of_spanDigits (Option.some.inj h)
    · cases h
  · cases h

theorem suffix_of_scanFraction {cs ds rest : List Char} (h : scanFraction cs = (ds, rest)) :
    rest <:+ cs := by
  unfold scanFraction at h
  split at h
  · split at h
    · cases h
      exact List.suffix_refl _
    · exact (suffix_of_spanDigits h).trans (List.suffix_cons _ _)
  · cases h
    exact List.suffix_refl _

theorem suffix_of_splitSign {cs rest : List Char} {negative : Bool}
    (h : Decimal.splitSign cs = (negative, rest)) : rest <:+ cs := by
  unfold Decimal.splitSign at h
  split at h
  · cases h
    exact List.suffix_cons _ _
  · cases h
    exact List.suffix_cons _ _
  · cases h
    exact List.suffix_refl _

theorem suffix_of_scanExponent {cs rest : List Char} {e : Option Int}
    (h : scanExponent cs = (e, rest)) : rest <:+ cs := by
  unfold scanExponent at h
  split at h
  · split at h
    · rename_i c tail _
      cases hsign : Decimal.splitSign tail with
      | mk negative behind =>
        rw [hsign] at h
        have hbehind := (suffix_of_splitSign hsign).trans (List.suffix_cons c tail)
        dsimp only at h
        split at h
        · cases h
          exact List.suffix_refl _
        · rename_i ds left _ hspan
          cases h
          exact (suffix_of_spanDigits hspan).trans hbehind
    · cases h
      exact List.suffix_refl _
  · cases h
    exact List.suffix_refl _

/-! ## Values -/

/-- What a scanner of values returns for some characters is in order. -/
def Sound (cs : List Char) : Scan Json → Prop
  | .ok (v, rest) => rest <:+ cs ∧ v.toValue.isWritable = true
  | .error (.digits n) => HasLongRun cs n
  | .error (.complaint _ _) => True

theorem Sound.mono {cs rest : List Char} {r : Scan Json} (h : Sound rest r)
    (hrest : rest <:+ cs) : Sound cs r := by
  match r with
  | .ok (v, left) => exact ⟨h.1.trans hrest, h.2⟩
  | .error (.digits n) => exact HasLongRun.mono h hrest
  | .error (.complaint _ _) => trivial

/-- The digits of the whole part: a zero alone, or all leading digits. -/
theorem digits_of_scanWhole {cs ds rest : List Char} (h : scanWhole cs = some (ds, rest)) :
    (∀ c ∈ ds, c.isDigit = true) ∧ cs = ds ++ rest
      ∧ (Decimal.digitLimit < ds.length → ∀ c ∈ rest.head?, c.isDigit = false) := by
  unfold scanWhole at h
  split at h
  · cases h
    exact ⟨List.forall_mem_singleton.2 rfl, rfl, fun hlong => absurd hlong (by decide)⟩
  · rename_i first tail _
    split at h
    · have hspan := Option.some.inj h
      cases hspan
      refine ⟨fun c hc => ?_, (List.takeWhile_append_dropWhile).symm, fun _ c hc => ?_⟩
      · exact List.all_eq_true.1 List.all_takeWhile c hc
      · have hhead := List.head?_dropWhile_not Char.isDigit (first :: tail)
        rw [Option.mem_def.1 hc] at hhead
        exact hhead
    · cases h
  · cases h

/-- A run of digits within the limit is a number that can be written. -/
theorem isWritable_withSign (negative : Bool) {ds : List Char} (hds : ∀ c ∈ ds, c.isDigit = true)
    (hlimit : ds.length ≤ Decimal.digitLimit) :
    Decimal.isWritable (Decimal.withSign negative (Decimal.value ds)) = true := by
  have hlt : Decimal.value ds < 10 ^ Decimal.digitLimit :=
    Nat.lt_of_lt_of_le (Decimal.value_lt hds) (Nat.pow_le_pow_right (by decide) hlimit)
  rw [Decimal.isWritable, decide_eq_true_iff, Decimal.withSign]
  cases negative
  · simpa using hlt
  · simpa using hlt

theorem sound_scanMagnitude {negative : Bool} {cs : List Char} {r : Scan Json}
    (h : scanMagnitude negative cs = some r) : Sound cs r := by
  rw [scanMagnitude, Option.map_eq_some_iff] at h
  obtain ⟨⟨whole, rest⟩, hwhole, rfl⟩ := h
  obtain ⟨hds, hcs, hend⟩ := digits_of_scanWhole hwhole
  have hrest := suffix_of_scanWhole hwhole
  cases hfraction : scanFraction rest with
  | mk fraction rest' =>
    cases hexponent : scanExponent rest' with
    | mk exponent rest'' =>
      have hleft := (suffix_of_scanExponent hexponent).trans
        ((suffix_of_scanFraction hfraction).trans hrest)
      dsimp only
      rw [hfraction]
      dsimp only
      rw [hexponent]
      dsimp only
      split
      · split
        · rename_i hlimit
          exact ⟨hleft, isWritable_withSign negative hds hlimit⟩
        · rename_i hlong
          have hlong := Nat.lt_of_not_le hlong
          exact ⟨hlong, [], whole, rest, hcs, rfl, hds, hend hlong⟩
      · exact ⟨hleft, rfl⟩

theorem sound_scanNumber {cs : List Char} {r : Scan Json} (h : scanNumber cs = some r) :
    Sound cs r := by
  unfold scanNumber at h
  split at h
  · exact (sound_scanMagnitude h).mono (List.suffix_cons _ _)
  · exact sound_scanMagnitude h

theorem suffix_of_behindWord {word cs rest : List Char} (h : behindWord word cs = some rest) :
    rest <:+ cs := by
  induction word generalizing cs with
  | nil =>
    cases h
    exact List.suffix_refl _
  | cons c word ih =>
    cases cs with
    | nil => cases h
    | cons d cs =>
      rw [behindWord] at h
      split at h
      · exact (ih h).trans (List.suffix_cons d cs)
      · cases h

theorem sound_scanAtom (cs : List Char) : Sound cs (scanAtom cs) := by
  unfold scanAtom
  split
  · rename_i found hfound
    obtain ⟨⟨word, v⟩, hmem, hword⟩ := List.exists_of_findSome?_eq_some hfound
    obtain ⟨rest, hrest, rfl⟩ := Option.map_eq_some_iff.1 hword
    have hwritable : ∀ w ∈ words, w.2.toValue.isWritable = true := by
      intro w hw
      simp only [words, List.mem_cons, List.not_mem_nil, or_false] at hw
      rcases hw with rfl | rfl | rfl | rfl | rfl | rfl <;> rfl
    exact ⟨suffix_of_behindWord hrest, hwritable _ hmem⟩
  · split
    · rename_i scanned hscanned
      exact sound_scanNumber hscanned
    · trivial

/-! ## Texts -/

/-- A scanner of texts never refuses digits, and what it leaves is a suffix. -/
def TextSound (cs : List Char) : Scan String → Prop
  | .ok (_, rest) => rest <:+ cs
  | .error (.digits _) => False
  | .error (.complaint _ _) => True

theorem suffix_of_scanCode {cs rest : List Char} {c : Char} (h : scanCode cs = .ok (c, rest)) :
    rest <:+ cs := by
  unfold scanCode at h
  split at h
  · rename_i a b c' d e tail
    have hshort : (e :: tail) <:+ (a :: b :: c' :: d :: e :: tail) := ⟨[a, b, c', d], rfl⟩
    split at h
    · simp at h
    · split at h
      · split at h
        · rename_i a' b' c'' d' e' tail' heq
          have hpair : (e' :: tail') <:+ (e :: tail) := by
            rw [heq]
            exact ⟨['\\', 'u', a', b', c'', d'], rfl⟩
          split at h
          · simp at h
          · split at h
            · simp only [Except.ok.injEq, Prod.mk.injEq] at h
              exact h.2 ▸ hpair.trans hshort
            · simp only [Except.ok.injEq, Prod.mk.injEq] at h
              exact h.2 ▸ hshort
        · simp only [Except.ok.injEq, Prod.mk.injEq] at h
          exact h.2 ▸ hshort
      · simp only [Except.ok.injEq, Prod.mk.injEq] at h
        exact h.2 ▸ hshort
  · simp at h

theorem complaint_of_scanCode {cs : List Char} {r : Refusal} (h : scanCode cs = .error r) :
    ∃ what left, r = .complaint what left := by
  unfold scanCode at h
  split at h
  · split at h
    · exact ⟨_, _, (Except.error.inj h).symm⟩
    · split at h
      · split at h
        · split at h
          · exact ⟨_, _, (Except.error.inj h).symm⟩
          · split at h <;> simp at h
        · simp at h
      · simp at h
  · exact ⟨_, _, (Except.error.inj h).symm⟩

theorem TextSound.mono {cs rest : List Char} {r : Scan String} (h : TextSound rest r)
    (hrest : rest <:+ cs) : TextSound cs r := by
  match r with
  | .ok (s, left) => exact List.IsSuffix.trans h hrest
  | .error (.digits n) => exact h
  | .error (.complaint _ _) => trivial

theorem textSound_scanText (start fuel : Nat) (done cs : List Char) :
    TextSound cs (scanText start fuel done cs) := by
  fun_induction scanText start fuel done cs with
  | case1 | case2 | case4 | case7 | case9 => trivial
  | case3 => exact List.suffix_cons _ _
  | case5 fuel done behind r hcode =>
    obtain ⟨what, left, rfl⟩ := complaint_of_scanCode hcode
    trivial
  | case6 fuel done behind c left hcode ih =>
    have hbehind : behind <:+ '\\' :: 'u' :: behind := ⟨['\\', 'u'], rfl⟩
    exact ih.mono ((suffix_of_scanCode hcode).trans hbehind)
  | case8 fuel done c behind _ d _ ih =>
    have hbehind : behind <:+ '\\' :: c :: behind := ⟨['\\', c], rfl⟩
    exact ih.mono hbehind
  | case10 fuel done c rest _ _ _ ih => exact ih.mono (List.suffix_cons _ _)

theorem textSound_readText (cs : List Char) : TextSound cs (readText cs) :=
  textSound_scanText _ _ _ _

/-! ## Arrays and objects -/

/-- All values of an object can be written. -/
def AreWritable (members : List (String × Json)) : Prop :=
  ∀ m ∈ members, m.2.toValue.isWritable = true

theorem areWritable_put (name : String) {v : Json} {members : List (String × Json)}
    (hv : v.toValue.isWritable = true) (h : AreWritable members) :
    AreWritable (put name v members) := by
  induction members with
  | nil => simpa [AreWritable, put] using hv
  | cons m rest ih =>
    obtain ⟨n, u⟩ := m
    simp only [AreWritable, List.mem_cons, forall_eq_or_imp] at h
    rw [put]
    split
    · simp only [AreWritable, List.mem_cons, forall_eq_or_imp]
      exact ⟨hv, h.2⟩
    · simp only [AreWritable, List.mem_cons, forall_eq_or_imp]
      exact ⟨h.1, ih h.2⟩

theorem isWritable_object_iff (members : List (String × Json)) :
    (object members).toValue.isWritable = true ↔ AreWritable members := by
  rw [toValue, Value.isWritable, Value.entriesWritable_iff, toEntries_eq_map, List.forall_mem_map]
  simp [AreWritable, Value.isWritable]

theorem isWritable_array_iff (items : List Json) :
    (array items).toValue.isWritable = true ↔ ∀ v ∈ items, v.toValue.isWritable = true := by
  rw [toValue, Value.isWritable, Value.areWritable_iff, toValues_eq_map, List.forall_mem_map]

/-- A refusal of a text in a value is in order. -/
theorem TextSound.error {cs : List Char} {r : Refusal} (h : TextSound cs (.error r)) :
    Sound cs (.error r) := by
  cases r with
  | complaint what left => trivial
  | digits n => exact h.elim

/-- Behind an item of an array: its end, or further items. -/
theorem sound_behind_item {cs rest : List Char} {items : List Json} {further : List Char → Scan Json}
    (hrest : rest <:+ cs) (hitems : (array items).toValue.isWritable = true)
    (hfurther : ∀ left, Sound left (further left)) :
    Sound cs (match skipGap rest with
      | ']' :: left => .ok (array items, left)
      | ',' :: left => further (skipGap left)
      | left => complain .comma left) := by
  have hgap := (skipGap_suffix rest).trans hrest
  split
  · rename_i left hskip
    rw [hskip] at hgap
    exact ⟨(List.suffix_cons _ _).trans hgap, hitems⟩
  · rename_i left hskip
    rw [hskip] at hgap
    exact (hfurther _).mono ((skipGap_suffix left).trans ((List.suffix_cons _ _).trans hgap))
  · trivial

/-- Behind a member of an object: its end, or further members. -/
theorem sound_behind_member {cs rest : List Char} {members : List (String × Json)}
    {further : List Char → Scan Json} (hrest : rest <:+ cs)
    (hmembers : (object members).toValue.isWritable = true)
    (hfurther : ∀ left, Sound left (further left)) :
    Sound cs (match skipGap rest with
      | '\x7d' :: left => .ok (object members, left)
      | ',' :: left => further (skipGap left)
      | left => complain .comma left) := by
  have hgap := (skipGap_suffix rest).trans hrest
  split
  · rename_i left hskip
    rw [hskip] at hgap
    exact ⟨(List.suffix_cons _ _).trans hgap, hmembers⟩
  · rename_i left hskip
    rw [hskip] at hgap
    exact (hfurther _).mono ((skipGap_suffix left).trans ((List.suffix_cons _ _).trans hgap))
  · trivial

section

variable {fuel : Nat} (hvalue : ∀ cs, Sound cs (scanValue fuel cs))
  (hitems : ∀ done cs, (∀ v ∈ done, v.toValue.isWritable = true) →
    Sound cs (scanItems fuel done cs))
  (hmembers : ∀ done cs, AreWritable done → Sound cs (scanMembers fuel done cs))

include hitems hmembers in
theorem sound_scanValue_succ (cs : List Char) : Sound cs (scanValue (fuel + 1) cs) := by
  unfold scanValue
  split
  · rename_i rest
    have hread := (textSound_readText rest).mono (List.suffix_cons '"' rest)
    split
    · rename_i r hr
      rw [hr] at hread
      exact hread.error
    · rename_i s left hr
      rw [hr] at hread
      exact ⟨hread, rfl⟩
  · rename_i rest
    have hgap := (skipGap_suffix rest).trans (List.suffix_cons '[' rest)
    split
    · rename_i left hskip
      rw [hskip] at hgap
      exact ⟨(List.suffix_cons _ _).trans hgap, rfl⟩
    · exact (hitems [] _ (by simp)).mono hgap
  · rename_i rest
    have hgap := (skipGap_suffix rest).trans (List.suffix_cons '\x7b' rest)
    split
    · rename_i left hskip
      rw [hskip] at hgap
      exact ⟨(List.suffix_cons _ _).trans hgap, rfl⟩
    · exact (hmembers [] _ (by simp [AreWritable])).mono hgap
  · exact sound_scanAtom cs

include hvalue hitems in
theorem sound_scanItems_succ (done : List Json) (cs : List Char)
    (hdone : ∀ v ∈ done, v.toValue.isWritable = true) :
    Sound cs (scanItems (fuel + 1) done cs) := by
  unfold scanItems
  have hfirst := hvalue cs
  split
  · rename_i r hr
    rw [hr] at hfirst
    exact hfirst
  · rename_i v rest hr
    rw [hr] at hfirst
    have hdone' : ∀ u ∈ v :: done, u.toValue.isWritable = true := by
      simpa using ⟨hfirst.2, hdone⟩
    refine sound_behind_item hfirst.1 ?_ fun left => hitems (v :: done) left hdone'
    exact (isWritable_array_iff _).2 fun u hu => hdone' u (List.mem_reverse.1 hu)

include hvalue hmembers in
theorem sound_scanMembers_succ (done : List (String × Json)) (cs : List Char)
    (hdone : AreWritable done) : Sound cs (scanMembers (fuel + 1) done cs) := by
  unfold scanMembers
  split
  · rename_i rest
    have hread := (textSound_readText rest).mono (List.suffix_cons '"' rest)
    split
    · rename_i r hr
      rw [hr] at hread
      exact hread.error
    · rename_i n behind hr
      rw [hr] at hread
      have hgap := (skipGap_suffix behind).trans hread
      split
      · rename_i behind' hskip
        rw [hskip] at hgap
        have hleft := (skipGap_suffix behind').trans ((List.suffix_cons _ _).trans hgap)
        have hfirst := (hvalue (skipGap behind')).mono hleft
        split
        · rename_i r hr
          rw [hr] at hfirst
          exact hfirst
        · rename_i v rest' hr
          rw [hr] at hfirst
          have hput := areWritable_put n hfirst.2 hdone
          exact sound_behind_member hfirst.1 ((isWritable_object_iff _).2 hput)
            fun left => hmembers _ left hput
      · trivial
  · trivial

end

/-- The three scanners of values are in order with the same fuel. -/
theorem sound_scan_values (fuel : Nat) :
    (∀ cs, Sound cs (scanValue fuel cs))
    ∧ (∀ done cs, (∀ v ∈ done, v.toValue.isWritable = true) → Sound cs (scanItems fuel done cs))
    ∧ ∀ done cs, AreWritable done → Sound cs (scanMembers fuel done cs) := by
  induction fuel with
  | zero =>
    refine ⟨fun cs => ?_, fun done cs _ => ?_, fun done cs _ => ?_⟩
    · rw [scanValue]
      trivial
    · rw [scanItems]
      trivial
    · rw [scanMembers]
      trivial
  | succ fuel ih =>
    obtain ⟨hvalue, hitems, hmembers⟩ := ih
    exact ⟨sound_scanValue_succ hitems hmembers, sound_scanItems_succ hvalue hitems,
      sound_scanMembers_succ hvalue hmembers⟩

/-! ## Whole texts -/

/-- What is read from a whole text, as the scanner of values returns it. -/
theorem scan_cases (cs : List Char) :
    (∃ v, scan cs = .ok v ∧ v.toValue.isWritable = true)
      ∨ (∃ n, scan cs = .error (.digits n) ∧ HasLongRun cs n)
      ∨ ∃ what left, scan cs = .error (.complaint what left) := by
  unfold scan
  split
  · exact .inr (.inr ⟨_, _, rfl⟩)
  · have hvalue := ((sound_scan_values (fuelFor cs)).1 (skipGap cs)).mono (skipGap_suffix cs)
    split
    · rename_i r hr
      rw [hr] at hvalue
      cases r with
      | complaint what left => exact .inr (.inr ⟨what, left, rfl⟩)
      | digits n => exact .inr (.inl ⟨n, rfl, hvalue⟩)
    · rename_i v rest hr
      rw [hr] at hvalue
      split
      · exact .inl ⟨v, rfl, hvalue.2⟩
      · exact .inr (.inr ⟨_, _, rfl⟩)

/-- A value that is read holds no number that is too long to be written. -/
theorem isWritable_of_scan {cs : List Char} {v : Json} (h : scan cs = .ok v) :
    v.toValue.isWritable = true := by
  rcases scan_cases cs with ⟨u, hu, hwritable⟩ | ⟨n, hn, -⟩ | ⟨what, left, hc⟩
  · rw [h] at hu
    cases hu
    exact hwritable
  · rw [h] at hn
    cases hn
  · rw [h] at hc
    cases hc

/-- A text that is refused for its digits has a run of more digits than can be read. -/
theorem hasLongRun_of_scan {cs : List Char} {n : Nat} (h : scan cs = .error (.digits n)) :
    HasLongRun cs n := by
  rcases scan_cases cs with ⟨u, hu, -⟩ | ⟨m, hm, hrun⟩ | ⟨what, left, hc⟩
  · rw [h] at hu
    cases hu
  · rw [h] at hm
    cases hm
    exact hrun
  · rw [h] at hc
    cases hc

end FieldCheck.Json
