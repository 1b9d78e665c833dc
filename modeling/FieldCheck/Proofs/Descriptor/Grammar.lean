/-
FieldCheck.Proofs.Descriptor.Grammar — what reading a descriptor notes.

`IsClean` is the grammar of descriptors behind the marker: a path alone, or a
constraint and a path, where the constraint has a known type token and may have a
length. `HasDefect` says for each note alone what a text must look like to deserve
it. Neither uses the functions that cut a descriptor up, and neither goes by the
order in which these look at it.

* `isClean_iff` — the texts without defects are those of the grammar. This is about
  the two relations alone.
* `mem_notes_iff` — reading notes the defects of a text, and nothing else.
* `clean_iff_grammar` — so a text is read without notes exactly when it is in the
  grammar, and then what is read is what the grammar derives.

A text has a constraint or it has none: it does not start with `(`, or it does and
never closes, or it encloses parts (`cases_constraint`). The parts and the path are
unique (`Encloses.unique`), so that the cases do not overlap.
-/
import FieldCheck.Proofs.Descriptor.Overlong

namespace FieldCheck

/-- The place of a note in the order of the notes. -/
def Note.rank : Note → Nat
  | unmatched => 0
  | extraParts _ => 1
  | unknownType _ => 2
  | invalidLength _ => 3

namespace Descriptor

open FieldCheck.Numeral (AreBlanks)

/-! ## The grammar -/

/-- The text behind the marker of a descriptor. Without a marker it is all of it. -/
def Unmarked (d t : List Char) : Prop := d = '*' :: t ∨ (d = t ∧ d.head? ≠ some '*')

/-- The tokens that name a type. -/
def knownTokens : List String := ["", "str", "int", "bool"]

/-- A run of one or more digits, with or without blanks around it, and its value. -/
inductive IsBound : List Char → Nat → Prop
  | digits {front run back : List Char} (hfront : AreBlanks front) (hne : run ≠ [])
      (hrun : ∀ c ∈ run, c.isDigit = true) (hback : AreBlanks back) :
      IsBound (front ++ (run ++ back)) (Decimal.value run)

/-- A text without defects, with the token, the bound and the path in it. -/
inductive IsClean : List Char → String → Option Nat → List Char → Prop
  | plain {t : List Char} (h : t.head? ≠ some '(') : IsClean t "" none t
  | typed {token : String} {path : List Char} (htoken : token ∈ knownTokens) :
      IsClean ('(' :: (token.toList ++ ')' :: path)) token none path
  | bounded {token : String} {length path : List Char} {n : Nat} (htoken : token ∈ knownTokens)
      (hlength : IsBound length n) :
      IsClean ('(' :: (token.toList ++ '@' :: length ++ ')' :: path)) token (some n) path

/-- A constraint, made of parts with `@` between them, in front of a path. -/
structure Encloses (t : List Char) (parts : List (List Char)) (path : List Char) : Prop where
  eq : t = '(' :: (['@'].intercalate parts ++ ')' :: path)
  ne_nil : parts ≠ []
  at_not_mem : ∀ part ∈ parts, '@' ∉ part
  close_not_mem : ')' ∉ ['@'].intercalate parts

/-- The text deserves a note. -/
inductive HasDefect (t : List Char) : Note → Prop
  | unmatched {rest : List Char} (h : t = '(' :: rest) (hclose : ')' ∉ rest) :
      HasDefect t .unmatched
  | extraParts {token length : List Char} {extra : List (List Char)} {path : List Char}
      (h : Encloses t (token :: length :: extra) path) (hne : extra ≠ []) :
      HasDefect t (.extraParts (extra.map String.ofList))
  | unknownType {token : List Char} {others : List (List Char)} {path : List Char}
      (h : Encloses t (token :: others) path) (hunknown : String.ofList token ∉ knownTokens) :
      HasDefect t (.unknownType (String.ofList token))
  | invalidLength {token length : List Char} {extra : List (List Char)} {path : List Char}
      (h : Encloses t (token :: length :: extra) path) (hbound : ∀ n, ¬ IsBound length n) :
      HasDefect t (.invalidLength (String.ofList length))

/-! ## Constraints -/

variable {t token path : List Char} {others : List (List Char)}

theorem splitMarker_of_unmarked {d : List Char} (h : Unmarked d t) : (splitMarker d).2 = t := by
  rcases h with rfl | ⟨rfl, hmarker⟩
  · rfl
  · unfold splitMarker
    split
    · exact absurd rfl hmarker
    · rfl

theorem Encloses.unique {parts parts' : List (List Char)} {path' : List Char}
    (h : Encloses t parts path) (h' : Encloses t parts' path') : parts = parts' ∧ path = path' := by
  have heq : ['@'].intercalate parts ++ ')' :: path = ['@'].intercalate parts' ++ ')' :: path' :=
    List.tail_eq_of_cons_eq (h.eq.symm.trans h'.eq)
  obtain ⟨htake, hdrop⟩ := span_close h.close_not_mem path
  obtain ⟨htake', hdrop'⟩ := span_close h'.close_not_mem path'
  rw [heq] at htake hdrop
  have hparts := congrArg (List.splitOn '@') (htake.symm.trans htake')
  rw [List.splitOn_intercalate '@' h.at_not_mem h.ne_nil,
    List.splitOn_intercalate '@' h'.at_not_mem h'.ne_nil] at hparts
  exact ⟨hparts, List.tail_eq_of_cons_eq (hdrop.symm.trans hdrop')⟩

/-- A text has no constraint, or one that does not end, or one in front of a path. -/
theorem cases_constraint (t : List Char) : t.head? ≠ some '('
    ∨ (∃ rest, t = '(' :: rest ∧ ')' ∉ rest)
    ∨ ∃ token others path, Encloses t (token :: others) path := by
  by_cases hopen : t.head? = some '('
  · obtain ⟨rest, rfl⟩ := List.head?_eq_some_iff.1 hopen
    by_cases hclose : ')' ∈ rest
    · obtain ⟨constraint, path, rfl, hnot⟩ := List.eq_append_cons_of_mem hclose
      have hjoin : ['@'].intercalate (constraint.splitOn '@') = constraint :=
        List.intercalate_splitOn '@'
      obtain ⟨token, others, hparts⟩ :=
        List.exists_cons_of_ne_nil (List.splitOn_ne_nil '@' constraint)
      have hat : ∀ part ∈ constraint.splitOn '@', '@' ∉ part := fun part hmem hc =>
        (mem_and_ne_of_mem_splitOn hmem hc).2 rfl
      rw [hparts] at hjoin hat
      exact .inr (.inr ⟨token, others, path, by rw [hjoin], by simp, hat, by rwa [hjoin]⟩)
    · exact .inr (.inl ⟨rest, rfl, hclose⟩)
  · exact .inl hopen

theorem splitConstraint_plain (h : t.head? ≠ some '(') : splitConstraint t = ⟨[], none, t, []⟩ := by
  unfold splitConstraint
  split
  · exact absurd rfl h
  · rfl

theorem splitConstraint_unmatched {rest : List Char} (h : ')' ∉ rest) :
    splitConstraint ('(' :: rest) = ⟨[], none, '(' :: rest, [.unmatched]⟩ := by
  have hdrop : rest.dropWhile (· != ')') = [] := by
    rw [List.dropWhile_eq_nil_iff]
    intro c hc
    have hne : c ≠ ')' := fun e => h (e ▸ hc)
    simpa using hne
  simp only [splitConstraint, hdrop]

theorem Encloses.splitConstraint_eq (h : Encloses t (token :: others) path) :
    splitConstraint t = ⟨token, others.head?, path, extraNotes others.tail⟩ := by
  rw [h.eq, splitConstraint_group h.close_not_mem, constraintPieces,
    List.splitOn_intercalate '@' h.at_not_mem h.ne_nil]
  cases others <;> rfl

/-! ## Lengths -/

theorem isBound_iff {length : List Char} {n : Nat} : IsBound length n
    ↔ isLength (Text.trim length) = true ∧ Decimal.value (Text.trim length) = n := by
  have hlength : isLength (Text.trim length) = true
      ↔ Text.trim length ≠ [] ∧ ∀ c ∈ Text.trim length, c.isDigit = true := by
    simp [isLength]
  rw [hlength]
  constructor
  · intro h
    obtain ⟨hfront, hne, hrun, hback⟩ := h
    rw [Text.trim_append hfront (fun c hc => Text.isBlank_of_isDigit (hrun c hc)) hback]
    exact ⟨⟨hne, hrun⟩, rfl⟩
  · intro h
    obtain ⟨⟨hne, hrun⟩, hn⟩ := h
    obtain ⟨front, back, hfront, hback, heq⟩ := Text.exists_trim length
    rw [heq, ← hn]
    exact .digits hfront hne hrun hback

/-- A length within the limit on digits is a bound, or it is noted. -/
theorem bound_some {length : List Char} {b : Option Int × List Note}
    (h : bound (some length) = .ok b) :
    (∃ n : Nat, IsBound length n ∧ b = (some (n : Int), []))
      ∨ ((∀ n, ¬ IsBound length n) ∧ b = (none, [.invalidLength (String.ofList length)])) := by
  rw [bound, readLength] at h
  by_cases hlength : isLength (Text.trim length) = true
  · simp only [hlength, Bool.not_true, Bool.false_eq_true, if_false] at h
    split at h
    · exact .inl ⟨_, isBound_iff.2 ⟨hlength, rfl⟩, (Except.ok.inj h).symm⟩
    · cases h
  · rw [if_pos (by simpa using hlength)] at h
    exact .inr ⟨fun n hn => hlength (isBound_iff.1 hn).1, (Except.ok.inj h).symm⟩

/-- The note on a length, for a constraint with a length or without one. -/
theorem mem_notes_bound_iff {length : Option (List Char)} {b : Option Int × List Note}
    (h : bound length = .ok b) {note : Note} : note ∈ b.2 ↔ ∃ token, length = some token
      ∧ (∀ n, ¬ IsBound token n) ∧ note = .invalidLength (String.ofList token) := by
  cases length with
  | none =>
    cases h
    simp
  | some token =>
    rcases bound_some h with ⟨n, hn, rfl⟩ | ⟨hnone, rfl⟩
    · simp only [List.not_mem_nil, Option.some.injEq, false_iff]
      intro ⟨_, heq, hnone, _⟩
      exact hnone n (heq ▸ hn)
    · simp [hnone]

/-! ## Defects -/

theorem mem_extraNotes_iff {parts : List (List Char)} {note : Note} :
    note ∈ extraNotes parts ↔ parts ≠ [] ∧ note = .extraParts (parts.map String.ofList) := by
  cases parts <;> simp [extraNotes]

theorem mem_typeNotes_iff {token : String} {note : Note} :
    note ∈ typeNotes token ↔ token ∉ knownTokens ∧ note = .unknownType token := by
  rw [typeNotes]
  split
  · rename_i h
    simp [knownTokens, (FieldType.ofToken_eq_unknown_iff token).1 h]
  · rename_i h
    rw [FieldType.ofToken_eq_unknown_iff, Classical.not_not] at h
    simp [knownTokens, h]

/-- The defects of a text with a constraint are those of its parts. -/
theorem Encloses.hasDefect_iff (h : Encloses t (token :: others) path) {note : Note} :
    HasDefect t note ↔ note ∈ extraNotes others.tail ∨ note ∈ typeNotes (String.ofList token)
      ∨ ∃ length, others.head? = some length ∧ (∀ n, ¬ IsBound length n)
        ∧ note = .invalidLength (String.ofList length) := by
  rw [mem_extraNotes_iff, mem_typeNotes_iff]
  constructor
  · intro hdefect
    cases hdefect with
    | unmatched ht hclose =>
      rw [h.eq, List.cons.injEq] at ht
      exact absurd (by simp [← ht.2]) hclose
    | extraParts h' hne =>
      obtain ⟨hparts, -⟩ := h.unique h'
      rw [List.cons.injEq] at hparts
      exact .inl (by simp [hparts.2, hne])
    | unknownType h' hunknown =>
      obtain ⟨hparts, -⟩ := h.unique h'
      rw [List.cons.injEq] at hparts
      exact .inr (.inl (by simp [hparts.1, hunknown]))
    | invalidLength h' hbound =>
      obtain ⟨hparts, -⟩ := h.unique h'
      rw [List.cons.injEq] at hparts
      exact .inr (.inr ⟨_, by simp [hparts.2], hbound, rfl⟩)
  · intro hnote
    rcases hnote with ⟨hne, rfl⟩ | ⟨hunknown, rfl⟩ | ⟨length, hlength, hbound, rfl⟩
    · cases others with
      | nil => exact absurd rfl hne
      | cons length extra => exact .extraParts h hne
    · exact .unknownType h hunknown
    · obtain ⟨extra, rfl⟩ := List.head?_eq_some_iff.1 hlength
      exact .invalidLength h hbound

theorem not_hasDefect_of_plain (h : t.head? ≠ some '(') (note : Note) : ¬ HasDefect t note := by
  intro hdefect
  cases hdefect with
  | unmatched ht _ => exact h (by rw [ht]; rfl)
  | extraParts h' _ => exact h (by rw [h'.eq]; rfl)
  | unknownType h' _ => exact h (by rw [h'.eq]; rfl)
  | invalidLength h' _ => exact h (by rw [h'.eq]; rfl)

theorem hasDefect_unmatched_iff {rest : List Char} (h : ')' ∉ rest) {note : Note} :
    HasDefect ('(' :: rest) note ↔ note = .unmatched := by
  have hnone : ∀ parts path, ¬ Encloses ('(' :: rest) parts path := by
    intro parts path henc
    have hrest := List.tail_eq_of_cons_eq henc.eq
    exact h (by rw [hrest]; simp)
  constructor
  · intro hdefect
    cases hdefect with
    | unmatched => rfl
    | extraParts h' _ => exact absurd h' (hnone _ _)
    | unknownType h' _ => exact absurd h' (hnone _ _)
    | invalidLength h' _ => exact absurd h' (hnone _ _)
  · intro hnote
    rw [hnote]
    exact .unmatched rfl h

/-! ## Clean texts -/

theorem not_mem_known {token : String} (h : token ∈ knownTokens) :
    '@' ∉ token.toList ∧ ')' ∉ token.toList := by
  simp only [knownTokens, List.mem_cons, List.not_mem_nil, or_false] at h
  rcases h with rfl | rfl | rfl | rfl <;> decide

theorem IsBound.not_mem {length : List Char} {n : Nat} (h : IsBound length n) :
    '@' ∉ length ∧ ')' ∉ length := by
  have hplain : ∀ c, Text.isBlank c = false → c.isDigit = false → c ∉ length := by
    intro c hblank hdigit
    obtain ⟨hfront, -, hrun, hback⟩ := h
    simp only [List.mem_append, not_or]
    exact ⟨not_mem_of_areBlanks hfront hblank, not_mem_of_areDigits hrun hdigit,
      not_mem_of_areBlanks hback hblank⟩
  exact ⟨hplain '@' (by decide) (by decide), hplain ')' (by decide) (by decide)⟩

theorem encloses_typed {token : String} (h : token ∈ knownTokens) (path : List Char) :
    Encloses ('(' :: (token.toList ++ ')' :: path)) [token.toList] path where
  eq := by simp
  ne_nil := by simp
  at_not_mem := by simpa using (not_mem_known h).1
  close_not_mem := by simpa using (not_mem_known h).2

theorem encloses_bounded {token : String} {length : List Char} {n : Nat} (h : token ∈ knownTokens)
    (hlength : IsBound length n) (path : List Char) :
    Encloses ('(' :: (token.toList ++ '@' :: length ++ ')' :: path)) [token.toList, length] path where
  eq := by simp
  ne_nil := by simp
  at_not_mem := by simp [(not_mem_known h).1, hlength.not_mem.1]
  close_not_mem := by simp [(not_mem_known h).2, hlength.not_mem.2]

/-- The texts without defects are those of the grammar. -/
theorem isClean_iff :
    (∃ token bound path, IsClean t token bound path) ↔ ∀ note, ¬ HasDefect t note := by
  constructor
  · intro ⟨token, bound, path, hclean⟩ note hdefect
    cases hclean with
    | plain h => exact not_hasDefect_of_plain h note hdefect
    | typed htoken =>
      rw [(encloses_typed htoken path).hasDefect_iff, mem_extraNotes_iff, mem_typeNotes_iff] at hdefect
      simp [htoken] at hdefect
    | bounded htoken hlength =>
      rw [(encloses_bounded htoken hlength path).hasDefect_iff, mem_extraNotes_iff,
        mem_typeNotes_iff] at hdefect
      rcases hdefect with ⟨hne, -⟩ | ⟨hunknown, -⟩ | ⟨_, hsome, hbound, -⟩
      · exact hne rfl
      · exact hunknown (by simpa using htoken)
      · obtain rfl := Option.some.inj hsome
        exact hbound _ hlength
  · intro hnone
    rcases cases_constraint t with hplain | ⟨rest, rfl, hclose⟩ | ⟨token, others, path, h⟩
    · exact ⟨_, _, _, .plain hplain⟩
    · exact absurd (.unmatched rfl hclose) (hnone _)
    · obtain ⟨name, rfl⟩ : ∃ name : String, token = name.toList := ⟨String.ofList token, by simp⟩
      have htoken : name ∈ knownTokens := by
        refine Classical.not_not.1 fun hunknown => hnone _ (.unknownType h ?_)
        rwa [String.ofList_toList]
      cases others with
      | nil =>
        refine ⟨name, none, path, ?_⟩
        rw [h.eq, List.intercalate_singleton]
        exact .typed htoken
      | cons length extra =>
        obtain rfl : extra = [] := Classical.not_not.1 fun hne => hnone _ (.extraParts h hne)
        obtain ⟨n, hn⟩ : ∃ n, IsBound length n :=
          Classical.not_forall_not.1 fun hbound => hnone _ (.invalidLength h hbound)
        have hjoin : ['@'].intercalate [name.toList, length] = name.toList ++ '@' :: length := by
          simp
        refine ⟨name, some n, path, ?_⟩
        rw [h.eq, hjoin]
        exact .bounded htoken hn

/-! ## What is read -/

variable {d : String} {r : Requirement}

theorem exists_assemble (hd : parse d = .ok r) (ht : Unmarked d.toList t) :
    ∃ truthy b, bound (splitConstraint t).length = .ok b
      ∧ r = assemble truthy (splitConstraint t) b := by
  rw [parse, parseChars, parseUnmarked, splitMarker_of_unmarked ht] at hd
  cases hb : bound (splitConstraint t).length with
  | error f =>
    rw [hb] at hd
    cases hd
  | ok b =>
    rw [hb] at hd
    exact ⟨_, b, rfl, (Except.ok.inj hd).symm⟩

/-- Reading notes the defects of a text. -/
theorem mem_notes_iff (hd : parse d = .ok r) (ht : Unmarked d.toList t) (note : Note) :
    note ∈ r.notes ↔ HasDefect t note := by
  obtain ⟨truthy, b, hb, rfl⟩ := exists_assemble hd ht
  have hnotes : note ∈ b.2 ↔ _ := mem_notes_bound_iff hb
  rcases cases_constraint t with hplain | ⟨rest, rfl, hclose⟩ | ⟨token, others, path, h⟩
  · rw [splitConstraint_plain hplain] at hnotes ⊢
    simp [assemble, hnotes, mem_typeNotes_iff, knownTokens, not_hasDefect_of_plain hplain]
  · rw [splitConstraint_unmatched hclose] at hnotes ⊢
    simp [assemble, hnotes, mem_typeNotes_iff, knownTokens, hasDefect_unmatched_iff hclose]
  · rw [h.splitConstraint_eq] at hnotes ⊢
    simp [assemble, hnotes, h.hasDefect_iff]

/-- What cutting notes comes before what the token and the length do. -/
theorem pairwise_notes_splitConstraint (t : List Char) :
    ((splitConstraint t).notes.Pairwise fun a b => a.rank < b.rank)
      ∧ ∀ note ∈ (splitConstraint t).notes, note.rank ≤ 1 := by
  rcases cases_constraint t with hplain | ⟨rest, rfl, hclose⟩ | ⟨token, others, path, h⟩
  · simp [splitConstraint_plain hplain]
  · simp [splitConstraint_unmatched hclose, Note.rank]
  · rw [h.splitConstraint_eq]
    refine ⟨?_, fun note hnote => ?_⟩
    · show (extraNotes others.tail).Pairwise _
      unfold extraNotes
      split <;> simp
    · obtain ⟨-, rfl⟩ := mem_extraNotes_iff.1 hnote
      simp [Note.rank]

theorem pairwise_typeNotes (token : String) :
    (typeNotes token).Pairwise fun a b => a.rank < b.rank := by
  unfold typeNotes
  split <;> simp

theorem pairwise_notes_bound {length : Option (List Char)} {b : Option Int × List Note}
    (h : bound length = .ok b) : b.2.Pairwise fun a b => a.rank < b.rank := by
  cases length with
  | none =>
    cases h
    simp
  | some token =>
    rcases bound_some h with ⟨n, -, rfl⟩ | ⟨-, rfl⟩
    · simp
    · simp

/-- There is one note of a kind at most, and the kinds are in order. -/
theorem pairwise_notes (hd : parse d = .ok r) (ht : Unmarked d.toList t) :
    r.notes.Pairwise fun a b => a.rank < b.rank := by
  obtain ⟨truthy, b, hb, rfl⟩ := exists_assemble hd ht
  obtain ⟨hcut, hfirst⟩ := pairwise_notes_splitConstraint t
  have hrank : ∀ note ∈ typeNotes (String.ofList (splitConstraint t).token), note.rank = 2 := by
    intro note hnote
    obtain ⟨-, rfl⟩ := mem_typeNotes_iff.1 hnote
    rfl
  simp only [assemble, List.pairwise_append]
  refine ⟨⟨hcut, pairwise_typeNotes _, fun first h second h' => ?_⟩, pairwise_notes_bound hb,
    fun first h second h' => ?_⟩
  · rw [hrank second h']
    exact Nat.lt_succ_of_le (hfirst first h)
  · obtain ⟨_, -, -, rfl⟩ := (mem_notes_bound_iff hb).1 h'
    show first.rank < 3
    rcases List.mem_append.1 h with h | h
    · exact Nat.lt_of_le_of_lt (hfirst first h) (by decide)
    · rw [hrank first h]
      decide

theorem eq_of_isClean {bound : Option Nat} {name : String} (hd : parse d = .ok r)
    (ht : Unmarked d.toList t) (h : IsClean t name bound path) :
    r.token = name ∧ r.maxLength = bound.map Nat.cast ∧ r.path = segments path := by
  obtain ⟨truthy, b, hb, rfl⟩ := exists_assemble hd ht
  cases h with
  | plain hplain =>
    rw [splitConstraint_plain hplain] at hb ⊢
    cases hb
    exact ⟨rfl, rfl, rfl⟩
  | typed htoken =>
    rw [(encloses_typed htoken path).splitConstraint_eq] at hb ⊢
    cases hb
    exact ⟨String.ofList_toList, rfl, rfl⟩
  | bounded htoken hlength =>
    rw [(encloses_bounded htoken hlength path).splitConstraint_eq] at hb ⊢
    rcases bound_some hb with ⟨n, hn, rfl⟩ | ⟨hnone, -⟩
    · obtain rfl := (isBound_iff.1 hn).2.symm.trans (isBound_iff.1 hlength).2
      exact ⟨String.ofList_toList, rfl, rfl⟩
    · exact absurd hlength (hnone _)

/-- A descriptor is read without notes exactly when it is in the grammar, and then its
token, its bound and its path are those that the grammar derives. Else there is one
note for each of its defects, in order, and one log record with all of them. -/
theorem clean_iff_grammar (hd : parse d = .ok r) (ht : Unmarked d.toList t) :
    (r.notes = [] ↔ ∃ token bound path, IsClean t token bound path)
    ∧ (∀ token bound path, IsClean t token bound path → r.token = token
        ∧ r.maxLength = bound.map Nat.cast ∧ r.path = (path.splitOn '/').map String.ofList)
    ∧ (∀ note, note ∈ r.notes ↔ HasDefect t note)
    ∧ (r.notes.Pairwise fun a b => a.rank < b.rank)
    ∧ (r.notes = [] → (parseLogged d).log = [])
    ∧ (r.notes ≠ [] → (parseLogged d).log = [⟨.debug, .descriptors,
        "Degraded parse of field descriptor " ++ Text.quote d ++ ": "
          ++ "; ".intercalate (r.notes.map Note.message)⟩]) := by
  have hlog : (parseLogged d).log = r.log d := by
    rw [parseLogged, hd]
  refine ⟨?_, fun token bound path h => eq_of_isClean hd ht h, mem_notes_iff hd ht,
    pairwise_notes hd ht, fun hnone => ?_, fun hsome => ?_⟩
  · rw [isClean_iff, List.eq_nil_iff_forall_not_mem]
    exact forall_congr' fun note => not_congr (mem_notes_iff hd ht note)
  · rw [hlog, Requirement.log_eq_nil_iff]
    exact hnone
  · have hfull : r.notes.isEmpty = false := by simpa using hsome
    rw [hlog, Requirement.log, hfull]
    rfl

/-- What `*(int@ 007\u2003)a/b` stands for, with an em space behind the length. -/
def padded : Requirement := ⟨true, .integer, some 7, ["a", "b"], "int", []⟩

/-- What `*(strng@ 07x @y)a//b(` stands for. -/
def faulty : Requirement := ⟨true, .unknown, none, ["a", "", "b("], "strng",
  [.extraParts ["y"], .unknownType "strng", .invalidLength " 07x "]⟩

theorem clean_iff_grammar_padded :
    parse "*(int@ 007\u2003)a/b" = .ok padded
      ∧ parse "*(strng@ 07x @y)a//b(" = .ok faulty
      ∧ (∃ token bound path, IsClean "(int@ 007\u2003)a/b".toList token bound path)
      ∧ (¬ ∃ token bound path, IsClean "(strng@ 07x @y)a//b(".toList token bound path)
      ∧ ∀ note, note ∈ faulty.notes ↔ HasDefect "(strng@ 07x @y)a//b(".toList note := by
  have hpadded : parse "*(int@ 007\u2003)a/b" = .ok padded := rfl
  have hfaulty : parse "*(strng@ 07x @y)a//b(" = .ok faulty := rfl
  have hclean := clean_iff_grammar (t := "(int@ 007\u2003)a/b".toList) hpadded (.inl (by simp))
  have hnoted := clean_iff_grammar (t := "(strng@ 07x @y)a//b(".toList) hfaulty (.inl (by simp))
  refine ⟨hpadded, hfaulty, hclean.1.1 rfl, fun h => ?_, hnoted.2.2.1⟩
  exact absurd (hnoted.1.2 h) (by simp [faulty])

end Descriptor

end FieldCheck
