/-
FieldCheck.Proofs.Json.Strictness — when a written value keeps to the standard.

What is written for a value is in the grammar of the standard exactly if every
floating-point number in the value is finite (`isText_write_iff`).

For finite values the derivation follows the parts of the value, one rule for each
kind. The other direction has to exclude every derivation, also those that would cut
the text in other places than the writer does. So it looks at all texts of the
grammar at once: `bare` leaves the quoted parts out, and none of the rules has a
capital N or I in what is left. The words `NaN`, `Infinity` and `-Infinity` have one.

A quoted part is left out whatever is around it, since it closes what it opens. This
is what `IsBalanced` says, and it is true of written values and of everything that
the grammar derives.
-/
import FieldCheck.Proofs.Json.Writing

namespace FieldCheck.Json

/-! ## Written texts are in the grammar -/

namespace Strict

/-- Characters of a text, put together from single ones. -/
def AreTextChars (cs : List Char) : Prop :=
  ∃ parts : List (List Char), (∀ p ∈ parts, IsTextChar p) ∧ parts.flatten = cs

theorem areTextChars_nil : AreTextChars [] := ⟨[], by simp, rfl⟩

theorem IsTextChar.areTextChars {cs : List Char} (h : IsTextChar cs) : AreTextChars cs :=
  ⟨[cs], by simpa using h, by simp⟩

theorem AreTextChars.append {cs ds : List Char} (hcs : AreTextChars cs) (hds : AreTextChars ds) :
    AreTextChars (cs ++ ds) := by
  obtain ⟨parts, hparts, rfl⟩ := hcs
  obtain ⟨more, hmore, rfl⟩ := hds
  refine ⟨parts ++ more, ?_, List.flatten_append⟩
  intro p hp
  rcases List.mem_append.1 hp with hp | hp
  · exact hparts p hp
  · exact hmore p hp

theorem AreTextChars.isQuoted {cs : List Char} (h : AreTextChars cs) :
    IsQuoted ('"' :: (cs ++ ['"'])) := by
  obtain ⟨parts, hparts, rfl⟩ := h
  exact .mk hparts

theorem isTextChar_unicodeEscape (n : Nat) : IsTextChar (unicodeEscape n) := by
  refine .code (Text.length_hexPadded 4 n) ?_
  simp [Text.hexPadded, Text.hexValue_hexDigit]

theorem areTextChars_escapeChar (c : Char) : AreTextChars (escapeChar c) := by
  unfold escapeChar
  split
  · exact (IsTextChar.letter (by decide)).areTextChars
  rename_i hmark
  split
  · exact (IsTextChar.letter (by decide)).areTextChars
  rename_i hescape
  split
  · exact (IsTextChar.letter (by decide)).areTextChars
  split
  · exact (IsTextChar.letter (by decide)).areTextChars
  split
  · exact (IsTextChar.letter (by decide)).areTextChars
  split
  · exact (IsTextChar.letter (by decide)).areTextChars
  split
  · exact (IsTextChar.letter (by decide)).areTextChars
  split
  · rename_i hrange
    exact (IsTextChar.plain hrange.1 hmark hescape).areTextChars
  split
  · exact (isTextChar_unicodeEscape _).areTextChars
  · exact (isTextChar_unicodeEscape _).areTextChars.append (isTextChar_unicodeEscape _).areTextChars

theorem isQuoted_writeText (s : String) : IsQuoted (writeText s) := by
  have hchars : ∀ cs : List Char, AreTextChars (cs.flatMap escapeChar) := by
    intro cs
    induction cs with
    | nil => exact areTextChars_nil
    | cons c cs ih => exact (areTextChars_escapeChar c).append ih
  exact (hchars s.toList).isQuoted

/-! ## Finite values are in the grammar -/

/-- Parts with commas between them, for items and for members alike. -/
theorem derives_separated {s : Symbol} {parts : List (List Char)} (hne : parts ≠ [])
    (hlast : ∀ gap p, AreGaps gap → p ∈ parts → Derives s (gap ++ p))
    (hmore : ∀ gap p rest, AreGaps gap → p ∈ parts → Derives s rest →
      Derives s (gap ++ (p ++ ',' :: rest)))
    {gap : List Char} (hgap : AreGaps gap) : Derives s (gap ++ separated parts) := by
  induction parts generalizing gap with
  | nil => exact absurd rfl hne
  | cons p ps ih =>
    cases ps with
    | nil => exact hlast gap p hgap (by simp)
    | cons q qs =>
      have hrest : Derives s ([' '] ++ separated (q :: qs)) :=
        ih (by simp) (fun g r hg hr => hlast g r hg (List.mem_cons_of_mem _ hr))
          (fun g r rest hg hr => hmore g r rest hg (List.mem_cons_of_mem _ hr)) areGaps_blank
      rw [separated_cons_cons]
      exact hmore gap p _ hgap (by simp) hrest

theorem derives_items {parts : List (List Char)} (hne : parts ≠ [])
    (h : ∀ p ∈ parts, Derives .value p) : Derives .items (separated parts) := by
  refine derives_separated hne ?_ ?_ areGaps_nil
  · intro gap p hgap hp
    have hitem := Derives.lastItem hgap (h p hp) areGaps_nil
    rwa [List.append_nil] at hitem
  · intro gap p rest hgap hp hrest
    exact .item hgap (h p hp) areGaps_nil hrest

theorem derives_members {ms : List (String × Json)} (hne : ms ≠ [])
    (h : ∀ m ∈ ms, Derives .value (writeChars m.2)) :
    Derives .members (separated (ms.map memberChars)) := by
  refine derives_separated (by simpa using hne) ?_ ?_ areGaps_nil
  · intro gap p hgap hp
    obtain ⟨m, hm, rfl⟩ := List.mem_map.1 hp
    have hmember := Derives.lastMember hgap (isQuoted_writeText m.1) areGaps_nil areGaps_blank
      (h m hm) areGaps_nil
    rwa [List.append_nil] at hmember
  · intro gap p rest hgap hp hrest
    obtain ⟨m, hm, rfl⟩ := List.mem_map.1 hp
    have hmember := Derives.member hgap (isQuoted_writeText m.1) areGaps_nil areGaps_blank
      (h m hm) areGaps_nil hrest
    rw [memberChars, List.append_assoc]
    exact hmember

theorem derives_writeChars {j : Json} (h : IsFinite j) : Derives .value (writeChars j) := by
  induction j using induction_on_parts with
  | h j ih =>
    cases j with
    | null => exact .word (by simp [words, writeChars])
    | bool b =>
      cases b
      · exact .word (by simp [words, writeChars])
      · exact .word (by simp [words, writeChars])
    | int n => exact .number (isNumber_chars n)
    | float x =>
      obtain ⟨negative, code, hcode, rfl⟩ := (everywhere_iff.1 h).1
      exact .number (isNumber_chars_finite negative hcode)
    | text s => exact .text (isQuoted_writeText s)
    | array xs =>
      rw [isFinite_array_iff] at h
      rw [writeChars, writeItems_eq_map]
      by_cases hne : xs = []
      · subst hne
        exact .emptyArray areGaps_nil
      · refine .array (derives_items (by simpa using hne) ?_)
        exact List.forall_mem_map.2 fun x hx => ih x hx (h x hx)
    | object ms =>
      rw [isFinite_object_iff] at h
      rw [writeChars, writeMembers_eq_map]
      by_cases hne : ms = []
      · subst hne
        exact .emptyObject areGaps_nil
      · refine .object (derives_members hne ?_)
        exact fun m hm => ih m.2 (List.mem_map_of_mem hm) (h m hm)

end Strict

/-! ## Outside of quotation marks -/

/-- Where a character stands: outside of a text, inside of one, or behind a backslash. -/
inductive Standing where
  | outside
  | inside
  | escaped
  deriving DecidableEq, Repr

/-- Where the next character stands. -/
def Standing.next : Standing → Char → Standing
  | outside, c => if c = '"' then inside else outside
  | inside, c => if c = '"' then outside else if c = '\\' then escaped else inside
  | escaped, _ => inside

/-- The characters outside of texts, without the marks. -/
def bareFrom : Standing → List Char → List Char
  | _, [] => []
  | s, c :: cs =>
    if s = .outside ∧ c ≠ '"' then c :: bareFrom (s.next c) cs else bareFrom (s.next c) cs

/-- The characters outside of texts, from a place outside of texts on. -/
def bare (cs : List Char) : List Char := bareFrom .outside cs

/-- Behind the characters one is outside of texts again. -/
def IsBalanced (cs : List Char) : Prop := ∀ rest, bare (cs ++ rest) = bare cs ++ bare rest

theorem bare_nil : bare [] = [] := rfl

theorem isBalanced_nil : IsBalanced [] := fun _ => rfl

theorem IsBalanced.append {cs ds : List Char} (hcs : IsBalanced cs) (hds : IsBalanced ds) :
    IsBalanced (cs ++ ds) := by
  intro rest
  rw [List.append_assoc, hcs, hds, hcs ds, List.append_assoc]

theorem bare_cons {c : Char} (hc : c ≠ '"') (cs : List Char) : bare (c :: cs) = c :: bare cs := by
  simp [bare, bareFrom, hc, Standing.next]

theorem bare_append_of_no_mark {cs : List Char} (h : '"' ∉ cs) (rest : List Char) :
    bare (cs ++ rest) = cs ++ bare rest := by
  induction cs with
  | nil => rfl
  | cons c cs ih =>
    rw [List.mem_cons, not_or] at h
    rw [List.cons_append, bare_cons fun e => h.1 e.symm, ih h.2, List.cons_append]

theorem bare_of_no_mark {cs : List Char} (h : '"' ∉ cs) : bare cs = cs := by
  have happend := bare_append_of_no_mark h []
  rwa [List.append_nil, bare_nil, List.append_nil] at happend

theorem isBalanced_of_no_mark {cs : List Char} (h : '"' ∉ cs) : IsBalanced cs := by
  intro rest
  rw [bare_append_of_no_mark h, bare_of_no_mark h]

/-- Characters of a text do not close it. -/
theorem bareFrom_inside_append {cs : List Char} (h : Strict.IsTextChar cs) (rest : List Char) :
    bareFrom .inside (cs ++ rest) = bareFrom .inside rest := by
  have hstep : ∀ {c : Char}, c ≠ '"' → c ≠ '\\' → ∀ rest,
      bareFrom .inside (c :: rest) = bareFrom .inside rest := by
    intro c hmark hescape rest
    simp [bareFrom, Standing.next, hmark, hescape]
  have hescaped : ∀ (c : Char) rest,
      bareFrom .inside ('\\' :: c :: rest) = bareFrom .inside rest := by
    intro c rest
    simp [bareFrom, Standing.next]
  cases h with
  | plain _ hmark hescape => exact hstep hmark hescape rest
  | @letter c => exact hescaped c rest
  | @code ds hlength hds =>
    clear hlength
    rw [List.cons_append, List.cons_append, hescaped]
    induction ds with
    | nil => rfl
    | cons d ds ih =>
      rw [List.forall_mem_cons] at hds
      have hmark : d ≠ '"' := by
        rintro rfl
        exact absurd hds.1 (by decide)
      have hescape : d ≠ '\\' := by
        rintro rfl
        exact absurd hds.1 (by decide)
      rw [List.cons_append, hstep hmark hescape]
      exact ih hds.2

theorem bare_append_of_isQuoted {cs : List Char} (h : Strict.IsQuoted cs) (rest : List Char) :
    bare (cs ++ rest) = bare rest := by
  obtain ⟨hparts⟩ := h
  rename_i parts
  have hopen : bare ('"' :: (parts.flatten ++ ['"']) ++ rest)
      = bareFrom .inside (parts.flatten ++ '"' :: rest) := by
    simp [bare, bareFrom, Standing.next]
  rw [hopen]
  induction parts with
  | nil => simp [bare, bareFrom, Standing.next]
  | cons p ps ih =>
    rw [List.forall_mem_cons] at hparts
    rw [List.flatten_cons, List.append_assoc, bareFrom_inside_append hparts.1]
    refine ih hparts.2 ?_
    simp [bare, bareFrom, Standing.next]

theorem bare_of_isQuoted {cs : List Char} (h : Strict.IsQuoted cs) : bare cs = [] := by
  have happend := bare_append_of_isQuoted h []
  rwa [List.append_nil] at happend

theorem isBalanced_of_isQuoted {cs : List Char} (h : Strict.IsQuoted cs) : IsBalanced cs := by
  intro rest
  rw [bare_append_of_isQuoted h, bare_of_isQuoted h, List.nil_append]

/-! ## No capitals outside of texts -/

/-- Characters that hold a capital which the words for numbers without a value have. -/
def Shouts (cs : List Char) : Prop := 'N' ∈ cs ∨ 'I' ∈ cs

theorem shouts_append_iff (cs ds : List Char) : Shouts (cs ++ ds) ↔ Shouts cs ∨ Shouts ds := by
  simp only [Shouts, List.mem_append]
  tauto

/-- Balanced characters without capitals outside of texts. -/
structure IsCalm (cs : List Char) : Prop where
  balanced : IsBalanced cs
  quiet : ¬ Shouts (bare cs)

theorem IsCalm.append {cs ds : List Char} (hcs : IsCalm cs) (hds : IsCalm ds) :
    IsCalm (cs ++ ds) := by
  refine ⟨hcs.balanced.append hds.balanced, ?_⟩
  rw [hcs.balanced, shouts_append_iff, not_or]
  exact ⟨hcs.quiet, hds.quiet⟩

theorem isCalm_of_forall {cs : List Char} (h : ∀ c ∈ cs, c ≠ '"' ∧ c ≠ 'N' ∧ c ≠ 'I') :
    IsCalm cs := by
  have hmark : '"' ∉ cs := fun hc => (h _ hc).1 rfl
  refine ⟨isBalanced_of_no_mark hmark, ?_⟩
  rw [bare_of_no_mark hmark, Shouts, not_or]
  exact ⟨fun hc => (h _ hc).2.1 rfl, fun hc => (h _ hc).2.2 rfl⟩

theorem IsCalm.cons {c : Char} {cs : List Char} (h : IsCalm cs)
    (hc : c ≠ '"' ∧ c ≠ 'N' ∧ c ≠ 'I') : IsCalm (c :: cs) :=
  (isCalm_of_forall (List.forall_mem_singleton.2 hc)).append h

theorem IsCalm.between {first last : Char} {cs : List Char} (h : IsCalm cs)
    (hfirst : first ≠ '"' ∧ first ≠ 'N' ∧ first ≠ 'I')
    (hlast : last ≠ '"' ∧ last ≠ 'N' ∧ last ≠ 'I') : IsCalm (first :: (cs ++ [last])) :=
  (h.append (isCalm_of_forall (List.forall_mem_singleton.2 hlast))).cons hfirst

theorem isCalm_of_isQuoted {cs : List Char} (h : Strict.IsQuoted cs) : IsCalm cs := by
  refine ⟨isBalanced_of_isQuoted h, ?_⟩
  simp [bare_of_isQuoted h, Shouts]

theorem isCalm_of_areGaps {cs : List Char} (h : Strict.AreGaps cs) : IsCalm cs := by
  refine isCalm_of_forall fun c hc => ?_
  have hgap := h c hc
  refine ⟨?_, ?_, ?_⟩ <;> (rintro rfl; exact absurd hgap (by decide))

theorem isCalm_of_isNumber {cs : List Char} (h : Strict.IsNumber cs) : IsCalm cs := by
  refine isCalm_of_forall fun c hc => ?_
  have hnumber := h.isNumberChar hc
  refine ⟨?_, ?_, ?_⟩ <;>
    (rintro rfl; exact absurd hnumber (by simp [Strict.IsNumberChar, Strict.numberMarks]))

/-- Nothing that the grammar derives has a capital outside of texts. -/
theorem Strict.Derives.isCalm {s : Strict.Symbol} {cs : List Char} (h : Strict.Derives s cs) :
    IsCalm cs := by
  induction h with
  | word h =>
    simp only [Strict.words, List.mem_cons, List.not_mem_nil, or_false] at h
    rcases h with rfl | rfl | rfl <;> exact isCalm_of_forall (by simp)
  | number h => exact isCalm_of_isNumber h
  | text h => exact isCalm_of_isQuoted h
  | emptyArray hgap => exact (isCalm_of_areGaps hgap).between (by decide) (by decide)
  | array _ ih => exact ih.between (by decide) (by decide)
  | emptyObject hgap => exact (isCalm_of_areGaps hgap).between (by decide) (by decide)
  | object _ ih => exact ih.between (by decide) (by decide)
  | lastItem hfront _ hback ih =>
    exact (isCalm_of_areGaps hfront).append (ih.append (isCalm_of_areGaps hback))
  | item hfront _ hback _ ih ihRest =>
    exact (isCalm_of_areGaps hfront).append
      (ih.append ((isCalm_of_areGaps hback).append (ihRest.cons (by decide))))
  | lastMember hfront hname hgap hbetween _ hback ih =>
    exact (isCalm_of_areGaps hfront).append ((isCalm_of_isQuoted hname).append
      ((isCalm_of_areGaps hgap).append (((isCalm_of_areGaps hbetween).append
        (ih.append (isCalm_of_areGaps hback))).cons (by decide))))
  | member hfront hname hgap hbetween _ hback _ ih ihRest =>
    exact (isCalm_of_areGaps hfront).append ((isCalm_of_isQuoted hname).append
      ((isCalm_of_areGaps hgap).append (((isCalm_of_areGaps hbetween).append
        (ih.append ((isCalm_of_areGaps hback).append (ihRest.cons (by decide))))).cons
          (by decide))))

theorem Strict.IsText.isCalm {cs : List Char} (h : Strict.IsText cs) : IsCalm cs := by
  obtain ⟨hfront, hvalue, hback⟩ := h
  exact (isCalm_of_areGaps hfront).append (hvalue.isCalm.append (isCalm_of_areGaps hback))

/-! ## Numbers that are not finite shout -/

theorem isBalanced_separated {parts : List (List Char)} (h : ∀ p ∈ parts, IsBalanced p) :
    IsBalanced (separated parts) := by
  fun_induction separated parts with
  | case1 => exact isBalanced_nil
  | case2 p => exact h p (by simp)
  | case3 p ps hps ih =>
    rw [List.forall_mem_cons] at h
    have hcomma : IsBalanced [',', ' '] := isBalanced_of_no_mark (by decide)
    exact h.1.append (hcomma.append (ih h.2))

theorem shouts_separated {parts : List (List Char)} (h : ∀ p ∈ parts, IsBalanced p) {p : List Char}
    (hp : p ∈ parts) (hshouts : Shouts (bare p)) : Shouts (bare (separated parts)) := by
  fun_induction separated parts with
  | case1 => simp at hp
  | case2 q =>
    rw [List.mem_singleton] at hp
    rwa [← hp]
  | case3 q qs hqs ih =>
    rw [List.forall_mem_cons] at h
    rw [h.1, shouts_append_iff, bare_cons (by decide), bare_cons (by decide)]
    rcases List.mem_cons.1 hp with rfl | hp
    · exact .inl hshouts
    · exact .inr ((ih h.2 hp).imp (fun h => by simp [h]) fun h => by simp [h])

theorem bare_between {first last : Char} {cs : List Char} (h : IsBalanced cs) (hfirst : first ≠ '"')
    (hlast : last ≠ '"') : bare (first :: (cs ++ [last])) = first :: (bare cs ++ [last]) := by
  have hmark : '"' ∉ [last] := fun e => hlast (List.mem_singleton.1 e).symm
  rw [bare_cons hfirst, h, bare_of_no_mark hmark]

theorem shouts_between {first last : Char} {cs : List Char} (h : IsBalanced cs)
    (hfirst : first ≠ '"') (hlast : last ≠ '"') (hshouts : Shouts (bare cs)) :
    Shouts (bare (first :: (cs ++ [last]))) := by
  rw [bare_between h hfirst hlast]
  exact hshouts.imp (fun h => by simp [h]) fun h => by simp [h]

/-- A member of an object has outside of texts what its value has, behind a colon. -/
theorem bare_memberChars (m : String × Json) :
    bare (memberChars m) = ':' :: ' ' :: bare (writeChars m.2) := by
  rw [memberChars, bare_append_of_isQuoted (Strict.isQuoted_writeText m.1),
    bare_cons (by decide), bare_cons (by decide)]

theorem isBalanced_memberChars {m : String × Json} (h : IsBalanced (writeChars m.2)) :
    IsBalanced (memberChars m) := by
  have hcolon : IsBalanced [':', ' '] := isBalanced_of_no_mark (by decide)
  exact (isBalanced_of_isQuoted (Strict.isQuoted_writeText m.1)).append (hcolon.append h)

theorem isBalanced_between {first last : Char} {cs : List Char} (h : IsBalanced cs)
    (hfirst : first ≠ '"') (hlast : last ≠ '"') : IsBalanced (first :: (cs ++ [last])) := by
  have hmark : ∀ {c : Char}, c ≠ '"' → IsBalanced [c] := fun hc =>
    isBalanced_of_no_mark fun e => hc (List.mem_singleton.1 e).symm
  exact (hmark hfirst).append (h.append (hmark hlast))

theorem isBalanced_writeChars (j : Json) : IsBalanced (writeChars j) := by
  induction j using induction_on_parts with
  | h j ih =>
    cases j with
    | null => exact isBalanced_of_no_mark (by decide)
    | bool b => cases b <;> exact isBalanced_of_no_mark (by decide)
    | int n => exact (isCalm_of_isNumber (isNumber_chars n)).balanced
    | float x =>
      cases x with
      | nan => exact isBalanced_of_no_mark (by decide)
      | infinite negative => cases negative <;> exact isBalanced_of_no_mark (by decide)
      | finite negative code hcode =>
        exact (isCalm_of_isNumber (isNumber_chars_finite negative hcode)).balanced
    | text s => exact isBalanced_of_isQuoted (Strict.isQuoted_writeText s)
    | array xs =>
      rw [writeChars, writeItems_eq_map]
      exact isBalanced_between (isBalanced_separated (List.forall_mem_map.2 ih)) (by decide)
        (by decide)
    | object ms =>
      rw [writeChars, writeMembers_eq_map]
      have hmembers : ∀ p ∈ ms.map memberChars, IsBalanced p :=
        List.forall_mem_map.2 fun m hm => isBalanced_memberChars (ih m.2 (List.mem_map_of_mem hm))
      exact isBalanced_between (isBalanced_separated hmembers) (by decide) (by decide)

/-- A number that is not finite shows outside of the texts of every value it occurs in. -/
theorem shouts_writeChars {j : Json} (h : ¬ IsFinite j) : Shouts (bare (writeChars j)) := by
  induction j using induction_on_parts with
  | h j ih =>
    cases j with
    | float x =>
      cases x with
      | nan => exact .inl (by decide)
      | infinite negative => cases negative <;> exact .inr (by decide)
      | finite negative code hcode =>
        exact absurd (everywhere_iff.2 ⟨⟨negative, code, hcode, rfl⟩, by rintro _ ⟨⟩⟩) h
    | array xs =>
      rw [isFinite_array_iff] at h
      push Not at h
      obtain ⟨x, hx, hfinite⟩ := h
      have hitems : ∀ p ∈ xs.map writeChars, IsBalanced p :=
        List.forall_mem_map.2 fun x _ => isBalanced_writeChars x
      rw [writeChars, writeItems_eq_map]
      exact shouts_between (isBalanced_separated hitems) (by decide) (by decide)
        (shouts_separated hitems (List.mem_map_of_mem hx) (ih x hx hfinite))
    | object ms =>
      rw [isFinite_object_iff] at h
      push Not at h
      obtain ⟨m, hm, hfinite⟩ := h
      have hmembers : ∀ p ∈ ms.map memberChars, IsBalanced p :=
        List.forall_mem_map.2 fun m _ => isBalanced_memberChars (isBalanced_writeChars m.2)
      have hshouts : Shouts (bare (memberChars m)) := by
        rw [bare_memberChars]
        exact (ih m.2 (List.mem_map_of_mem hm) hfinite).imp (fun h => by simp [h])
          fun h => by simp [h]
      rw [writeChars, writeMembers_eq_map]
      exact shouts_between (isBalanced_separated hmembers) (by decide) (by decide)
        (shouts_separated hmembers (List.mem_map_of_mem hm) hshouts)
    | _ => exact absurd (everywhere_iff.2 ⟨trivial, by rintro _ ⟨⟩⟩) h

/-- A value is written in the grammar of the standard exactly if it has no number
that is infinite or not a number. -/
theorem isText_write_iff (j : Json) : Strict.IsText j.write.toList ↔ IsFinite j := by
  rw [write, String.toList_ofList]
  constructor
  · intro htext
    by_contra hfinite
    exact htext.isCalm.quiet (shouts_writeChars hfinite)
  · intro hfinite
    exact (Strict.derives_writeChars hfinite).isText

end FieldCheck.Json
