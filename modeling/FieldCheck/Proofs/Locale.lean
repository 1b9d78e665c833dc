/-
FieldCheck.Proofs.Locale — which texts are locales.

`IsName` is the grammar of locales: two or three ASCII letters, and any number of
groups of a mark with ASCII letters or digits behind it. It says how such a text is
put together. The library takes texts apart at the marks instead, and `isLocale_iff`
says that the two agree. Since a part between marks holds none, the parts of a text
that was put together are the ones that it was put together from.

The pattern of locales describes more: a locale with one line feed behind it is in it
(`pattern_accepts_iff`).
-/
import FieldCheck.Locale

namespace FieldCheck.Locale

/-! ## The grammar -/

/-- An ASCII letter. -/
def IsLetter (c : Char) : Prop := ('A' ≤ c ∧ c ≤ 'Z') ∨ ('a' ≤ c ∧ c ≤ 'z')

/-- An ASCII digit. -/
def IsDigit (c : Char) : Prop := '0' ≤ c ∧ c ≤ '9'

/-- Groups of a mark with letters or digits behind it. -/
inductive Groups : List Char → Prop
  | nil : Groups []
  | cons {mark : Char} {part rest : List Char} (hmark : mark = '-' ∨ mark = '_') (hne : part ≠ [])
      (hpart : ∀ c ∈ part, IsLetter c ∨ IsDigit c) (hrest : Groups rest) :
      Groups (mark :: (part ++ rest))

/-- Two or three letters, and groups behind them. -/
inductive IsName : List Char → Prop
  | intro {language groups : List Char} (hlength : language.length = 2 ∨ language.length = 3)
      (hletters : ∀ c ∈ language, IsLetter c) (hgroups : Groups groups) :
      IsName (language ++ groups)

/-! ## Characters -/

/-- The character is one of a range. -/
theorem between_iff (low high c : Char) :
    (decide (c.val ≥ low.val) && decide (c.val ≤ high.val)) = true ↔ low ≤ c ∧ c ≤ high := by
  rw [Bool.and_eq_true, decide_eq_true_iff, decide_eq_true_iff]
  exact Iff.rfl

theorem isAlpha_iff (c : Char) : c.isAlpha = true ↔ IsLetter c := by
  have hupper : c.isUpper = true ↔ 'A' ≤ c ∧ c ≤ 'Z' := decide_eq_true_iff
  have hlower : c.isLower = true ↔ 'a' ≤ c ∧ c ≤ 'z' := between_iff 'a' 'z' c
  rw [IsLetter, ← hupper, ← hlower]
  exact Bool.or_eq_true_iff

theorem isAlphanum_iff (c : Char) : c.isAlphanum = true ↔ IsLetter c ∨ IsDigit c := by
  have hdigit : c.isDigit = true ↔ IsDigit c := between_iff '0' '9' c
  rw [← isAlpha_iff, ← hdigit]
  exact Bool.or_eq_true_iff

theorem isMark_iff (c : Char) : isMark c = true ↔ c = '-' ∨ c = '_' := by
  simp [isMark]

theorem isGroup_iff (cs : List Char) :
    isGroup cs = true ↔ cs ≠ [] ∧ ∀ c ∈ cs, IsLetter c ∨ IsDigit c := by
  simp [isGroup, isAlphanum_iff]

theorem isLanguage_iff (cs : List Char) :
    isLanguage cs = true ↔ (cs.length = 2 ∨ cs.length = 3) ∧ ∀ c ∈ cs, IsLetter c := by
  simp only [isLanguage, Bool.and_eq_true, decide_eq_true_eq, List.all_eq_true, isAlpha_iff]
  exact and_congr_left fun _ => by omega

/-- A mark is neither a letter nor a digit. -/
theorem isMark_eq_false {c : Char} (h : IsLetter c ∨ IsDigit c) : isMark c = false := by
  rw [← isAlphanum_iff] at h
  rw [← Bool.not_eq_true, isMark_iff]
  rintro (rfl | rfl)
  · exact absurd h (by decide)
  · exact absurd h (by decide)

/-! ## Parts -/

/-- Groups are taken apart into the parts behind the marks, whatever is in front of them. -/
theorem Groups.exists_parts {cs : List Char} (h : Groups cs) :
    ∃ parts : List (List Char), parts.all isGroup = true
      ∧ ∀ front : List Char, (∀ c ∈ front, isMark c = false) →
        (front ++ cs).splitOnP isMark = front :: parts := by
  induction h with
  | nil =>
    refine ⟨[], rfl, fun front hfront => ?_⟩
    rw [List.append_nil, List.splitOnP_eq_singleton hfront]
  | @cons mark part rest hmark hne hpart _ ih =>
    obtain ⟨parts, hparts, hsplit⟩ := ih
    have hmarks : ∀ c ∈ part, isMark c = false := fun c hc => isMark_eq_false (hpart c hc)
    refine ⟨part :: parts, ?_, fun front hfront => ?_⟩
    · rw [List.all_cons, hparts, (isGroup_iff part).2 ⟨hne, hpart⟩]
      rfl
    · rw [List.splitOnP_append_cons_of_forall_mem hfront _ ((isMark_iff mark).2 hmark),
        hsplit part hmarks]

/-- Behind the first part of a text that is taken apart into groups, there are groups. -/
theorem exists_groups {cs first : List Char} {parts : List (List Char)}
    (h : cs.splitOnP isMark = first :: parts) (hparts : parts.all isGroup = true) :
    ∃ rest, cs = first ++ rest ∧ Groups rest := by
  induction cs generalizing first parts with
  | nil =>
    rw [List.splitOnP_nil] at h
    cases h
    exact ⟨[], rfl, .nil⟩
  | cons c cs ih =>
    rcases hsplit : cs.splitOnP isMark with _ | ⟨next, others⟩
    · exact absurd hsplit (List.splitOnP_ne_nil _ _)
    rw [List.splitOnP_cons_eq_if_modifyHead, hsplit] at h
    split at h
    · rename_i hmark
      cases h
      rw [List.all_cons, Bool.and_eq_true, isGroup_iff] at hparts
      obtain ⟨⟨hne, hnext⟩, hothers⟩ := hparts
      obtain ⟨rest, rfl, hrest⟩ := ih hsplit hothers
      exact ⟨_, rfl, .cons ((isMark_iff c).1 hmark) hne hnext hrest⟩
    · cases h
      obtain ⟨rest, rfl, hrest⟩ := ih hsplit hparts
      exact ⟨rest, rfl, hrest⟩

/-- Texts are taken for locales exactly when they are put together like ones. -/
theorem isLocale_iff (cs : List Char) : isLocale cs = true ↔ IsName cs := by
  constructor
  · intro h
    rcases hsplit : cs.splitOnP isMark with _ | ⟨language, parts⟩
    · exact absurd hsplit (List.splitOnP_ne_nil _ _)
    · rw [isLocale, hsplit, Bool.and_eq_true, isLanguage_iff] at h
      obtain ⟨⟨hlength, hletters⟩, hparts⟩ := h
      obtain ⟨groups, rfl, hgroups⟩ := exists_groups hsplit hparts
      exact .intro hlength hletters hgroups
  · rintro ⟨hlength, hletters, hgroups⟩
    obtain ⟨parts, hparts, hsplit⟩ := hgroups.exists_parts
    rw [isLocale, hsplit _ fun c hc => isMark_eq_false (.inl (hletters c hc))]
    simp only [hparts, (isLanguage_iff _).2 ⟨hlength, hletters⟩, Bool.and_self]

/-! ## The pattern -/

/-- A locale, or one with a line feed behind it. -/
inductive IsNameOrLine : List Char → Prop
  | name {cs : List Char} (h : IsName cs) : IsNameOrLine cs
  | line {cs : List Char} (h : IsName cs) : IsNameOrLine (cs ++ ['\n'])

theorem pattern_accepts_iff (cs : List Char) : pattern.accepts cs = true ↔ IsNameOrLine cs := by
  have hpattern : pattern.accepts cs = true ↔ IsName cs ∨ IsName (beforeLineEnd cs) := by
    rw [pattern, Bool.or_eq_true, isLocale_iff, isLocale_iff]
  rw [hpattern, beforeLineEnd]
  constructor
  · rintro (h | h)
    · exact .name h
    · split at h
      · rename_i hlast
        obtain ⟨front, rfl⟩ := List.getLast?_eq_some_iff.1 hlast
        rw [List.dropLast_concat] at h
        exact .line h
      · exact .name h
  · rintro (h | h)
    · exact .inl h
    · refine .inr ?_
      rw [if_pos List.getLast?_concat, List.dropLast_concat]
      exact h

/-- Without a line feed at its end, a text is in the pattern exactly when it is a locale. -/
theorem isNameOrLine_iff {cs : List Char} (h : cs.getLast? ≠ some '\n') :
    IsNameOrLine cs ↔ IsName cs := by
  refine ⟨?_, .name⟩
  rintro (hname | hname)
  · exact hname
  · exact absurd List.getLast?_concat h

end FieldCheck.Locale
