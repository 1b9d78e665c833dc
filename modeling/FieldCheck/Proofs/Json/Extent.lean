/-
FieldCheck.Proofs.Json.Extent — how far the scanners of JSON look.

Two things have no influence on what a scanner returns.

* What stands behind the closing mark of a text. The scanner of a code looks ahead
  for a second code, past what it takes, so this has to be shown: where the scan of
  the text succeeds, whatever it looked at is in front of the mark
  (`readText_append`).
* Fuel beyond what a text needs. Each step takes a character away, and a value of
  an array or an object costs two units of fuel (`scanValue_of_fuel`).
-/
import FieldCheck.Proofs.Json.Writing

namespace FieldCheck

theorem Text.le_of_hexValue {c : Char} {v : Nat} (h : hexValue c = some v) : 0x30 ≤ c.toNat := by
  have hle : ∀ d : Char, d ≤ c → d.toNat ≤ c.toNat := fun d hd => hd
  unfold hexValue at h
  split at h
  · rename_i hrange
    exact hle '0' (by simpa using (Bool.and_eq_true_iff.1 hrange).1)
  split at h
  · rename_i hrange
    have := hle 'a' (by simpa using (Bool.and_eq_true_iff.1 hrange).1)
    exact Nat.le_trans (by decide) this
  split at h
  · rename_i hrange
    have := hle 'A' (by simpa using (Bool.and_eq_true_iff.1 hrange).1)
    exact Nat.le_trans (by decide) this
  · cases h

namespace Json

/-! ## Codes -/

/-- There is no control character. -/
def AreShown (cs : List Char) : Prop := ∀ c ∈ cs, 0x20 ≤ c.toNat

theorem areShown_nil : AreShown [] := List.forall_mem_nil _

theorem AreShown.cons {c : Char} {cs : List Char} (hc : 0x20 ≤ c.toNat) (hcs : AreShown cs) :
    AreShown (c :: cs) := List.forall_mem_cons.2 ⟨hc, hcs⟩

theorem AreShown.append {cs ds : List Char} (hcs : AreShown cs) (hds : AreShown ds) :
    AreShown (cs ++ ds) := List.forall_mem_append.2 ⟨hcs, hds⟩

theorem le_of_hexQuad {a b c d : Char} {n : Nat} (h : hexQuad a b c d = some n) :
    ∀ x ∈ [a, b, c, d], 0x30 ≤ x.toNat := by
  simp only [hexQuad, Option.bind_eq_bind, Option.bind_eq_some_iff] at h
  obtain ⟨w, ha, x, hb, y, hc, z, hd, -⟩ := h
  simpa using ⟨Text.le_of_hexValue ha, Text.le_of_hexValue hb, Text.le_of_hexValue hc,
    Text.le_of_hexValue hd⟩

theorem ne_mark_of_hexQuad {a b c d : Char} {n : Nat} (h : hexQuad a b c d = some n) :
    '"' ∉ [a, b, c, d] := fun hmem => absurd (le_of_hexQuad h '"' hmem) (by decide)

theorem areShown_of_hexQuad {a b c d : Char} {n : Nat} (h : hexQuad a b c d = some n) :
    AreShown [a, b, c, d] := fun x hx => Nat.le_trans (by decide) (le_of_hexQuad h x hx)

/-- What stands in front of a mark does so in both lists, if it holds no mark itself. -/
theorem exists_append_of_append_mark {front rest tail : List Char} (hfront : '"' ∉ front) :
    ∀ {body : List Char}, body ++ '"' :: rest = front ++ tail →
      ∃ body', body = front ++ body' ∧ tail = body' ++ '"' :: rest := by
  induction front with
  | nil => exact fun h => ⟨_, rfl, h.symm⟩
  | cons c front ih =>
    rw [List.mem_cons, not_or] at hfront
    intro body h
    cases body with
    | nil => exact absurd (List.cons.inj h).1 hfront.1
    | cons d body =>
      obtain ⟨hhead, hbody⟩ := List.cons.inj h
      obtain ⟨body', rfl, htail⟩ := ih hfront.2 hbody
      exact ⟨body', by rw [hhead, List.cons_append], htail⟩

/-- A first half that nothing like a code stands behind is a code of its own. -/
theorem scanCode_of_high {a b c d : Char} {n : Nat} {left : List Char}
    (hquad : hexQuad a b c d = some n) (hhigh : isHigh n = true) (hleft : left ≠ [])
    (hnone : ∀ tail, left ≠ '\\' :: 'u' :: tail) :
    scanCode (a :: b :: c :: d :: left) = .ok (codeChar n, left) := by
  obtain ⟨e, rest, rfl⟩ := List.exists_cons_of_ne_nil hleft
  simp only [scanCode, hquad, hhigh, if_true]
  split
  · rename_i heq
    exact absurd heq (hnone _)
  · rfl

theorem exists_of_five_le_length {cs : List Char} (h : 5 ≤ cs.length) :
    ∃ a b c d e rest, cs = a :: b :: c :: d :: e :: rest := by
  match cs, h with
  | a :: b :: c :: d :: e :: rest, _ => exact ⟨a, b, c, d, e, rest, rfl⟩

/-- A code that was read is read again when something else stands behind the
closing mark. A text that goes on with half a code is no text, so that case is left out. -/
theorem scanCode_append {cs left body rest : List Char} {c : Char} (h : scanCode cs = .ok (c, left))
    (hleft : left = body ++ '"' :: rest)
    (hnext : ∀ tail, left = '\\' :: 'u' :: tail → 5 ≤ tail.length) :
    ∃ code, cs = code ++ left ∧ AreShown code
      ∧ ∀ rest', scanCode (code ++ (body ++ '"' :: rest')) = .ok (c, body ++ '"' :: rest') := by
  have hbehind : ∀ rest', ∃ e tail, body ++ '"' :: rest' = e :: tail := fun rest' =>
    List.exists_cons_of_ne_nil (by simp)
  unfold scanCode at h
  split at h
  case h_2 => cases h
  rename_i a b d₁ d₂ e tail
  split at h
  · cases h
  rename_i n hquad
  have hshown := areShown_of_hexQuad hquad
  split at h
  · rename_i hhigh
    split at h
    · rename_i a' b' d₁' d₂' e' tail' heq
      split at h
      · cases h
      rename_i m hquad'
      have hmark : '"' ∉ ['\\', 'u', a', b', d₁', d₂'] := by
        simpa using ne_mark_of_hexQuad hquad'
      split at h
      · rename_i hlow
        obtain ⟨rfl, rfl⟩ := Prod.mk.inj (Except.ok.inj h)
        refine ⟨[a, b, d₁, d₂] ++ '\\' :: 'u' :: [a', b', d₁', d₂'], ?_, ?_, fun rest' => ?_⟩
        · rw [heq]
          rfl
        · exact hshown.append (.cons (by decide) (.cons (by decide) (areShown_of_hexQuad hquad')))
        · obtain ⟨f, behind, hf⟩ := hbehind rest'
          rw [hf]
          simp [scanCode, hquad, hhigh, hquad', hlow]
      · rename_i hlow
        cases h
        rw [heq] at hleft
        obtain ⟨body', rfl, -⟩ := @exists_append_of_append_mark ['\\', 'u', a', b', d₁', d₂'] rest
          (e' :: tail') hmark _ hleft.symm
        refine ⟨[a, b, d₁, d₂], rfl, hshown, fun rest' => ?_⟩
        obtain ⟨f, behind, hf⟩ := List.exists_cons_of_ne_nil (show body' ++ '"' :: rest' ≠ [] by simp)
        rw [List.append_assoc, hf]
        simp [scanCode, hquad, hhigh, hquad', hlow]
    · rename_i hnone
      cases h
      refine ⟨[a, b, d₁, d₂], rfl, hshown, fun rest' => ?_⟩
      refine scanCode_of_high hquad hhigh (by simp) fun ahead hahead => ?_
      -- A code ahead would be in front of the mark, and so the one that was not there before.
      obtain ⟨body', rfl, -⟩ :=
        @exists_append_of_append_mark ['\\', 'u'] rest' ahead (by decide) _ hahead
      have hlong := hnext (body' ++ '"' :: rest) (by simpa using hleft)
      obtain ⟨a', b', d₁', d₂', e', tail', htail⟩ := exists_of_five_le_length hlong
      refine hnone a' b' d₁' d₂' e' tail' ?_
      rw [hleft, List.append_assoc, htail]
      rfl
  · rename_i hhigh
    cases h
    refine ⟨[a, b, d₁, d₂], rfl, hshown, fun rest' => ?_⟩
    obtain ⟨f, behind, hf⟩ := hbehind rest'
    rw [hf]
    simp [scanCode, hquad, hhigh]

/-! ## Texts -/

theorem scanCode_of_short {cs : List Char} (h : cs.length < 5) :
    scanCode cs = .error (.complaint .badCode (cs.length + 1)) := by
  unfold scanCode
  split
  · simp at h
    omega
  · rfl

/-- A text goes on with a whole code or with none. -/
theorem le_length_of_scanText {start fuel : Nat} {done tail : List Char} {found : String × List Char}
    (h : scanText start fuel done ('\\' :: 'u' :: tail) = .ok found) : 5 ≤ tail.length := by
  by_contra hshort
  cases fuel with
  | zero => cases h
  | succ fuel =>
    rw [scanText, scanCode_of_short (Nat.lt_of_not_le hshort)] at h
    cases h

theorem le_of_unescape {c d : Char} (h : unescape c = some d) : 0x20 ≤ c.toNat := by
  by_contra hsmall
  have hne : ∀ e : Char, 0x20 ≤ e.toNat → c ≠ e := by
    rintro e he rfl
    exact hsmall he
  rw [unescape, if_neg (hne _ (by decide)), if_neg (hne _ (by decide)), if_neg (hne _ (by decide)),
    if_neg (hne _ (by decide)), if_neg (hne _ (by decide)), if_neg (hne _ (by decide)),
    if_neg (hne _ (by decide)), if_neg (hne _ (by decide))] at h
  cases h

/-- What is read of a text stands in front of its closing mark, and it is read
again when something else stands behind the mark. -/
theorem scanText_append {start fuel : Nat} {done cs rest : List Char} {s : String}
    (h : scanText start fuel done cs = .ok (s, rest)) :
    ∃ body, cs = body ++ '"' :: rest ∧ AreShown body
      ∧ ∀ start' fuel' rest', body.length < fuel' →
        scanText start' fuel' done (body ++ '"' :: rest') = .ok (s, rest') := by
  fun_induction scanText start fuel done cs with
  | case1 | case2 | case4 | case5 | case7 | case9 => cases h
  | case3 done fuel left =>
    cases h
    refine ⟨[], rfl, areShown_nil, fun start' fuel' rest' hfuel => ?_⟩
    obtain ⟨fuel', rfl⟩ := Nat.exists_eq_add_one_of_ne_zero (Nat.ne_zero_of_lt hfuel)
    rfl
  | case6 fuel done behind c left hcode ih =>
    obtain ⟨body, hleft, hshown, hread⟩ := ih h
    obtain ⟨code, rfl, hcodes, hagain⟩ := scanCode_append hcode hleft fun tail htail =>
      le_length_of_scanText (by rw [← htail]; exact h)
    refine ⟨'\\' :: 'u' :: (code ++ body), by simp [hleft], ?_, fun start' fuel' rest' hfuel => ?_⟩
    · exact .cons (by decide) (.cons (by decide) (hcodes.append hshown))
    · simp only [List.length_cons, List.length_append] at hfuel
      obtain ⟨fuel', rfl⟩ := Nat.exists_eq_add_one_of_ne_zero (Nat.ne_zero_of_lt hfuel)
      rw [List.cons_append, List.cons_append, List.append_assoc, scanText_code (hagain rest')]
      exact hread _ _ _ (by omega)
  | case8 fuel done c behind hu d hletter ih =>
    obtain ⟨body, rfl, hshown, hread⟩ := ih h
    refine ⟨'\\' :: c :: body, rfl, .cons (by decide) (.cons (le_of_unescape hletter) hshown),
      fun start' fuel' rest' hfuel => ?_⟩
    simp only [List.length_cons] at hfuel
    obtain ⟨fuel', rfl⟩ := Nat.exists_eq_add_one_of_ne_zero (Nat.ne_zero_of_lt hfuel)
    rw [List.cons_append, List.cons_append, scanText_letter hletter hu]
    exact hread _ _ _ (by omega)
  | case10 fuel done c left hmark hescape hcontrol ih =>
    obtain ⟨body, rfl, hshown, hread⟩ := ih h
    have hcontrol := Nat.le_of_not_lt hcontrol
    refine ⟨c :: body, rfl, .cons hcontrol hshown, fun start' fuel' rest' hfuel => ?_⟩
    rw [List.length_cons] at hfuel
    obtain ⟨fuel', rfl⟩ := Nat.exists_eq_add_one_of_ne_zero (Nat.ne_zero_of_lt hfuel)
    rw [List.cons_append, scanText_plain hmark hescape hcontrol]
    exact hread _ _ _ (by omega)

theorem readText_append {cs rest : List Char} {s : String} (h : readText cs = .ok (s, rest)) :
    ∃ body, cs = body ++ '"' :: rest ∧ AreShown body
      ∧ ∀ rest', readText (body ++ '"' :: rest') = .ok (s, rest') := by
  obtain ⟨body, hcs, hshown, hread⟩ := scanText_append h
  refine ⟨body, hcs, hshown, fun rest' => hread _ _ _ ?_⟩
  simp only [List.length_append]
  omega

/-! ## Fuel -/

theorem length_skipGap_le (cs : List Char) : (skipGap cs).length ≤ cs.length :=
  (skipGap_suffix cs).length_le

section

variable {fuel fuel' : Nat}

theorem scanValue_succ_of_fuel {cs : List Char}
    (hitems : ∀ inside, inside.length < cs.length →
      scanItems fuel [] inside = scanItems fuel' [] inside)
    (hmembers : ∀ inside, inside.length < cs.length →
      scanMembers fuel [] inside = scanMembers fuel' [] inside) :
    scanValue (fuel + 1) cs = scanValue (fuel' + 1) cs := by
  unfold scanValue
  split
  · rfl
  · rename_i rest
    have hinside := hitems (skipGap rest) (Nat.lt_succ_of_le (length_skipGap_le rest))
    split
    · rfl
    · exact hinside
  · rename_i rest
    have hinside := hmembers (skipGap rest) (Nat.lt_succ_of_le (length_skipGap_le rest))
    split
    · rfl
    · exact hinside
  · rfl

theorem scanItems_succ_of_fuel {done : List Json} {cs : List Char}
    (hvalue : scanValue fuel cs = scanValue fuel' cs)
    (hitems : ∀ done inside, inside.length < cs.length →
      scanItems fuel done inside = scanItems fuel' done inside) :
    scanItems (fuel + 1) done cs = scanItems (fuel' + 1) done cs := by
  have hsound := (sound_scan_values fuel).1 cs
  rw [scanItems, scanItems, ← hvalue]
  split
  · rfl
  · rename_i v rest hr
    rw [hr] at hsound
    have hrest := ((skipGap_suffix rest).trans hsound.1).length_le
    split
    · rfl
    · rename_i left hskip
      rw [hskip, List.length_cons] at hrest
      have hleft := length_skipGap_le left
      exact hitems _ _ (by omega)
    · rfl

theorem scanMembers_succ_of_fuel {done : List (String × Json)} {cs : List Char}
    (hvalue : ∀ inside, inside.length < cs.length → scanValue fuel inside = scanValue fuel' inside)
    (hmembers : ∀ done inside, inside.length < cs.length →
      scanMembers fuel done inside = scanMembers fuel' done inside) :
    scanMembers (fuel + 1) done cs = scanMembers (fuel' + 1) done cs := by
  unfold scanMembers
  split
  · rename_i rest
    have hread := textSound_readText rest
    split
    · rfl
    · rename_i n behind hr
      rw [hr] at hread
      have hbehind := ((skipGap_suffix behind).trans hread).length_le
      split
      · rename_i tail hskip
        rw [hskip, List.length_cons] at hbehind
        have htail := length_skipGap_le tail
        have hsound := (sound_scan_values fuel).1 (skipGap tail)
        rw [← hvalue (skipGap tail) (by rw [List.length_cons]; omega)]
        split
        · rfl
        · rename_i v rest' hr'
          rw [hr'] at hsound
          have hrest := ((skipGap_suffix rest').trans hsound.1).length_le
          split
          · rfl
          · rename_i left hskip'
            rw [hskip', List.length_cons] at hrest
            have hleft := length_skipGap_le left
            exact hmembers _ _ (by rw [List.length_cons]; omega)
          · rfl
      · rfl
  · rfl

end

/-- Fuel beyond twice the number of characters makes no difference. -/
theorem scan_values_of_fuel (fuel : Nat) :
    (∀ cs fuel', 2 * cs.length < fuel → 2 * cs.length < fuel' →
      scanValue fuel cs = scanValue fuel' cs)
    ∧ (∀ done cs fuel', 2 * cs.length + 1 < fuel → 2 * cs.length + 1 < fuel' →
      scanItems fuel done cs = scanItems fuel' done cs)
    ∧ ∀ done cs fuel', 2 * cs.length + 1 < fuel → 2 * cs.length + 1 < fuel' →
      scanMembers fuel done cs = scanMembers fuel' done cs := by
  induction fuel with
  | zero =>
    exact ⟨fun _ _ h => absurd h (Nat.not_lt_zero _), fun _ _ _ h => absurd h (Nat.not_lt_zero _),
      fun _ _ _ h => absurd h (Nat.not_lt_zero _)⟩
  | succ fuel ih =>
    obtain ⟨hvalue, hitems, hmembers⟩ := ih
    have hsucc : ∀ {n fuel' : Nat}, n < fuel' → ∃ k, fuel' = k + 1 := fun h =>
      Nat.exists_eq_add_one_of_ne_zero (Nat.ne_zero_of_lt h)
    refine ⟨fun cs fuel' h h' => ?_, fun done cs fuel' h h' => ?_, fun done cs fuel' h h' => ?_⟩
    all_goals obtain ⟨fuel', rfl⟩ := hsucc h'
    · exact scanValue_succ_of_fuel (fun inside hlt => hitems _ _ _ (by omega) (by omega))
        fun inside hlt => hmembers _ _ _ (by omega) (by omega)
    · exact scanItems_succ_of_fuel (hvalue _ _ (by omega) (by omega))
        fun done inside hlt => hitems _ _ _ (by omega) (by omega)
    · exact scanMembers_succ_of_fuel (fun inside hlt => hvalue _ _ (by omega) (by omega))
        fun done inside hlt => hmembers _ _ _ (by omega) (by omega)

theorem scanValue_of_fuel {fuel fuel' : Nat} {cs : List Char} (h : 2 * cs.length < fuel)
    (h' : 2 * cs.length < fuel') : scanValue fuel cs = scanValue fuel' cs :=
  (scan_values_of_fuel fuel).1 cs fuel' h h'

end Json

end FieldCheck
