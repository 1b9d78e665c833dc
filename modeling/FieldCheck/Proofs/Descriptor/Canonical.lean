/-
FieldCheck.Proofs.Descriptor.Canonical — the canonical form of descriptors.

`Requirement.render` writes a requirement as a descriptor that always has a
constraint, even an empty one: `*(str@50)contact/email`, `()name`. Behind a
constraint nothing of the path can be taken for a marker or for a parenthesis,
so writing is undone by reading (`parse_compose`), notes apart.

`Requirement.IsCanonical` says what a requirement must satisfy for that. It is
no restriction on what can be read: every requirement that a descriptor stands
for satisfies it (`isCanonical_of_parse`), however malformed the descriptor
was. An unmatched parenthesis, for instance, is a character of the path like
any other, and behind `()` it is read as one.

The three stages of reading are taken one at a time. The constraint is cut at
the first `)` and then at each `@`, the path at each `/`; a bound is read back
because its decimal form holds no blanks and no leading zeros.
-/
import FieldCheck.Check

namespace FieldCheck

/-! ## Writing requirements -/

namespace Descriptor

/-- The text of a bound behind its mark. Without a bound there is none. -/
def boundText : Option Int → String
  | none => ""
  | some n => "@" ++ Decimal.text n

/-- The descriptor that is made of a marker, a constraint and a path. -/
def compose (truthy : Bool) (token : String) (bound : Option Int) (path : List String) : String :=
  (if truthy then "*" else "") ++ ("(" ++ (token ++ boundText bound) ++ ")")
    ++ "/".intercalate path

end Descriptor

namespace Requirement

/-- The canonical descriptor of a requirement. -/
def render (r : Requirement) : String := Descriptor.compose r.truthy r.token r.maxLength r.path

/-- The requirement can be written as a descriptor that stands for it. -/
structure IsCanonical (r : Requirement) : Prop where
  path_ne_nil : r.path ≠ []
  slash_not_mem : ∀ segment ∈ r.path, '/' ∉ segment.toList
  at_not_mem : '@' ∉ r.token.toList
  close_not_mem : ')' ∉ r.token.toList
  type_eq : r.type = FieldType.ofToken r.token
  bound_lt : ∀ n ∈ r.maxLength, ∃ k : Nat, n = k ∧ k < 10 ^ Decimal.digitLimit

/-- The bound of a requirement that can be written is a natural number, if there is one. -/
theorem IsCanonical.exists_bound {r : Requirement} (h : r.IsCanonical) :
    ∃ bound : Option Nat, r.maxLength = bound.map Nat.cast
      ∧ ∀ n ∈ bound, n < 10 ^ Decimal.digitLimit := by
  cases hr : r.maxLength with
  | none => exact ⟨none, rfl, by simp⟩
  | some n =>
    obtain ⟨k, rfl, hk⟩ := h.bound_lt n hr
    exact ⟨some k, rfl, by simpa using hk⟩

end Requirement

namespace Descriptor

/-! ## Cutting at a character -/

/-- The parts of a list that is cut at an element hold its other elements only. -/
theorem mem_and_ne_of_mem_splitOn {α : Type} [BEq α] [LawfulBEq α] {a c : α} :
    ∀ {xs part : List α}, part ∈ xs.splitOn a → c ∈ part → c ∈ xs ∧ c ≠ a
  | [], part, h, hc => by
    rw [List.splitOn_nil, List.mem_singleton] at h
    simp [h] at hc
  | x :: xs, part, h, hc => by
    rw [List.splitOn_cons_eq_if_modifyHead] at h
    split at h
    · rcases List.mem_cons.1 h with rfl | h
      · simp at hc
      · have := mem_and_ne_of_mem_splitOn h hc
        exact ⟨by simp [this.1], this.2⟩
    · rename_i hx
      obtain ⟨first, rest, hs⟩ := List.exists_cons_of_ne_nil (List.splitOn_ne_nil a xs)
      rw [hs, List.modifyHead_cons] at h
      rcases List.mem_cons.1 h with rfl | h
      · rcases List.mem_cons.1 hc with rfl | hc
        · exact ⟨by simp, by simpa using hx⟩
        · have hmem : first ∈ xs.splitOn a := by simp [hs]
          have := mem_and_ne_of_mem_splitOn hmem hc
          exact ⟨by simp [this.1], this.2⟩
      · have hmem : part ∈ xs.splitOn a := by simp [hs, h]
        have := mem_and_ne_of_mem_splitOn hmem hc
        exact ⟨by simp [this.1], this.2⟩

/-- A text up to the first closing parenthesis, and what is behind it. -/
theorem span_close {constraint : List Char} (h : ')' ∉ constraint) (path : List Char) :
    (constraint ++ ')' :: path).takeWhile (· != ')') = constraint
      ∧ (constraint ++ ')' :: path).dropWhile (· != ')') = ')' :: path := by
  have hall : ∀ c ∈ constraint, (c != ')') = true := by
    intro c hc
    have hne : c ≠ ')' := fun e => h (e ▸ hc)
    simpa using hne
  rw [List.takeWhile_append_of_pos hall, List.dropWhile_append_of_pos hall]
  simp

/-! ## Reading a constraint -/

theorem splitConstraint_group {constraint : List Char} (h : ')' ∉ constraint) (path : List Char) :
    splitConstraint ('(' :: (constraint ++ ')' :: path)) = constraintPieces constraint path := by
  obtain ⟨htake, hdrop⟩ := span_close h path
  simp only [splitConstraint, htake, hdrop]

theorem constraintPieces_token {token : List Char} (h : '@' ∉ token) (path : List Char) :
    constraintPieces token path = ⟨token, none, path, []⟩ := by
  rw [constraintPieces, List.splitOn_eq_singleton h]

theorem constraintPieces_length {token length : List Char} (ht : '@' ∉ token)
    (hl : '@' ∉ length) (path : List Char) :
    constraintPieces (token ++ '@' :: length) path = ⟨token, some length, path, []⟩ := by
  rw [constraintPieces, List.splitOn_append_cons_self_of_not_mem ht, List.splitOn_eq_singleton hl]
  rfl

/-! ## Reading a length -/

/-- The decimal form of a number within the limit is read as that number. -/
theorem readLength_digits {n : Nat} (h : n < 10 ^ Decimal.digitLimit) :
    readLength (Decimal.digits n) = .ok (some n) := by
  have hdigits : ∀ c ∈ Decimal.digits n, c.isDigit = true := fun c hc =>
    Decimal.isDigit_of_mem_digits hc
  have hlength : isLength (Decimal.digits n) = true := by
    simpa [isLength, Decimal.digits_ne_nil] using hdigits
  have hlimit : (Decimal.digits n).length ≤ Decimal.digitLimit :=
    (Decimal.length_digits_le_iff (by decide)).2 h
  have htrim : Text.trim (Decimal.digits n) = Decimal.digits n :=
    Text.trim_eq_self fun c hc => Text.isBlank_of_isDigit (hdigits c hc)
  simp [readLength, htrim, hlength, hlimit, Decimal.value_digits]

theorem lt_of_readLength {token : List Char} {n : Nat} (h : readLength token = .ok (some n)) :
    n < 10 ^ Decimal.digitLimit := by
  have hlength : isLength (Text.trim token) = true := by
    cases hl : isLength (Text.trim token) with
    | true => rfl
    | false => simp [readLength, hl] at h
  have hlimit : (Text.trim token).length ≤ Decimal.digitLimit := by
    refine Nat.le_of_not_lt fun hlt => ?_
    simp [readLength, hlength, Nat.not_le.2 hlt] at h
  have hvalue : Decimal.value (Text.trim token) = n := by
    simpa [readLength, hlength, hlimit] using h
  have hdigits : ∀ c ∈ Text.trim token, c.isDigit = true := by
    simp only [isLength, Bool.and_eq_true, List.all_eq_true] at hlength
    exact hlength.2
  rw [← hvalue]
  exact Nat.lt_of_lt_of_le (Decimal.value_lt hdigits) (Nat.pow_le_pow_right (by decide) hlimit)

theorem lt_of_bound {length : Option (List Char)} {b : Option Int × List Note}
    (h : bound length = .ok b) : ∀ n ∈ b.1, ∃ k : Nat, n = k ∧ k < 10 ^ Decimal.digitLimit := by
  cases length with
  | none =>
    cases h
    simp
  | some token =>
    simp only [bound] at h
    cases hread : readLength token with
    | error f => simp [hread, Except.map] at h
    | ok found =>
      rw [hread] at h
      cases h
      cases found with
      | none => simp
      | some n =>
        intro m hm
        exact ⟨n, by simpa using hm.symm, lt_of_readLength hread⟩

/-! ## Reading what was written -/

theorem toList_constraint (token : String) (bound : Option Nat) :
    (token ++ boundText (bound.map Nat.cast)).toList = token.toList ++
      match bound with
      | none => []
      | some n => '@' :: Decimal.digits n := by
  cases bound with
  | none => simp [boundText]
  | some n =>
    have hpos : ¬ (n : Int) < 0 := by omega
    simp [boundText, Decimal.text, Decimal.chars, hpos]

theorem toList_compose (truthy : Bool) (token : String) (bound : Option Int) (path : List String) :
    (compose truthy token bound path).toList =
      (if truthy then ['*'] else []) ++ '(' ::
        ((token ++ boundText bound).toList ++ ')' :: ("/".intercalate path).toList) := by
  cases truthy <;> simp [compose]

theorem splitMarker_marked (truthy : Bool) (cs : List Char) :
    splitMarker ((if truthy then ['*'] else []) ++ '(' :: cs) = (truthy, '(' :: cs) := by
  cases truthy <;> rfl

theorem segments_intercalate {path : List String} (hne : path ≠ [])
    (hpath : ∀ segment ∈ path, '/' ∉ segment.toList) :
    segments ("/".intercalate path).toList = path := by
  have hcut : ("/".intercalate path).toList.splitOn '/' = path.map String.toList := by
    rw [String.toList_intercalate]
    exact List.splitOn_intercalate '/' (by simpa using hpath) (by simpa using hne)
  rw [segments, hcut, List.map_map]
  simp [Function.comp_def]

theorem splitConstraint_compose {token : String} (hat : '@' ∉ token.toList)
    (hclose : ')' ∉ token.toList) (bound : Option Nat) (path : List Char) :
    splitConstraint ('(' :: ((token ++ boundText (bound.map Nat.cast)).toList ++ ')' :: path))
      = ⟨token.toList, bound.map Decimal.digits, path, []⟩ := by
  have hdigits : ∀ {n : Nat} {c : Char}, c.isDigit = false → c ∉ Decimal.digits n := by
    intro n c hc hmem
    simp [Decimal.isDigit_of_mem_digits hmem] at hc
  rw [splitConstraint_group, toList_constraint]
  · cases bound with
    | none => simpa using constraintPieces_token hat path
    | some n => exact constraintPieces_length hat (hdigits (by decide)) path
  · rw [toList_constraint]
    cases bound with
    | none => simpa using hclose
    | some n =>
      have hn : ')' ∉ Decimal.digits n := hdigits (by decide)
      simp [hclose, hn]

theorem bound_digits {b : Option Nat} (h : ∀ n ∈ b, n < 10 ^ Decimal.digitLimit) :
    bound (b.map Decimal.digits) = .ok (b.map Nat.cast, []) := by
  cases b with
  | none => rfl
  | some n =>
    simp only [Option.map_some, bound, readLength_digits (h n rfl)]
    rfl

/-- Composing a descriptor is undone by reading it. The one note is on a type
token that names no type. -/
theorem parse_compose (truthy : Bool) {token : String} {bound : Option Nat} {path : List String}
    (hat : '@' ∉ token.toList) (hclose : ')' ∉ token.toList)
    (hbound : ∀ n ∈ bound, n < 10 ^ Decimal.digitLimit) (hne : path ≠ [])
    (hpath : ∀ segment ∈ path, '/' ∉ segment.toList) :
    parse (compose truthy token (bound.map Nat.cast) path) =
      .ok ⟨truthy, FieldType.ofToken token, bound.map Nat.cast, path, token, typeNotes token⟩ := by
  rw [parse, parseChars, toList_compose, splitMarker_marked, parseUnmarked,
    splitConstraint_compose hat hclose]
  simp only [bound_digits hbound, Except.map, assemble, segments_intercalate hne hpath,
    String.ofList_toList, List.nil_append, List.append_nil]

/-! ## What is read -/

/-- The token of a constraint holds neither of the characters that end it. -/
theorem token_constraintPieces {constraint : List Char} (h : ')' ∉ constraint) (path : List Char) :
    '@' ∉ (constraintPieces constraint path).token
      ∧ ')' ∉ (constraintPieces constraint path).token := by
  have hpart : ∀ part ∈ constraint.splitOn '@', '@' ∉ part ∧ ')' ∉ part := fun part hmem =>
    ⟨fun hc => (mem_and_ne_of_mem_splitOn hmem hc).2 rfl,
      fun hc => h (mem_and_ne_of_mem_splitOn hmem hc).1⟩
  unfold constraintPieces
  split
  · simp
  · rename_i token hs
    exact hpart token (by simp [hs])
  · rename_i token length extra hs
    exact hpart token (by simp [hs])

/-- The token of a descriptor holds neither of the characters that end it. -/
theorem token_splitConstraint (cs : List Char) :
    '@' ∉ (splitConstraint cs).token ∧ ')' ∉ (splitConstraint cs).token := by
  unfold splitConstraint
  split
  · rename_i rest
    split
    · rename_i path hdrop
      refine token_constraintPieces (fun hmem => ?_) _
      have := List.all_eq_true.1 (List.all_takeWhile (p := (· != ')')) (l := rest)) _ hmem
      simp at this
    · simp
  · simp

/-- The segments of a path are at least one, and none holds a separator. -/
theorem segments_spec (path : List Char) :
    segments path ≠ [] ∧ ∀ segment ∈ segments path, '/' ∉ segment.toList := by
  refine ⟨by simp [segments, List.splitOn_ne_nil], fun segment hmem => ?_⟩
  obtain ⟨part, hpart, rfl⟩ := List.mem_map.1 hmem
  rw [String.toList_ofList]
  exact fun hc => (mem_and_ne_of_mem_splitOn hpart hc).2 rfl

/-- What a descriptor stands for can be written in canonical form. -/
theorem isCanonical_of_parse {d : String} {r : Requirement} (h : parse d = .ok r) :
    r.IsCanonical := by
  simp only [parse, parseChars, parseUnmarked] at h
  generalize (splitMarker d.toList).2 = cs at h
  cases hb : bound (splitConstraint cs).length with
  | error f => simp [hb, Except.map] at h
  | ok b =>
    rw [hb] at h
    cases h
    obtain ⟨hne, hpath⟩ := segments_spec (splitConstraint cs).path
    obtain ⟨hat, hclose⟩ := token_splitConstraint cs
    exact ⟨hne, hpath, by simpa [assemble] using hat, by simpa [assemble] using hclose, rfl,
      lt_of_bound hb⟩

/-- The canonical descriptor of a requirement stands for the requirement,
except that the one note is on a type token that names no type. -/
theorem parse_render_of_isCanonical {r : Requirement} (h : r.IsCanonical) :
    parse r.render = .ok { r with notes := typeNotes r.token } := by
  obtain ⟨b, hb, hlt⟩ := h.exists_bound
  rw [Requirement.render, hb,
    parse_compose r.truthy h.at_not_mem h.close_not_mem hlt h.path_ne_nil h.slash_not_mem,
    ← h.type_eq, ← hb]

/-! ## The canonical form -/

theorem isMet_notes (r : Requirement) (notes : List Note) (record : Value) :
    { r with notes := notes }.isMet record = r.isMet record := rfl

/-- Whether a record meets a descriptor is decided by the requirement that it stands for. -/
theorem result_isMet_text (d : String) (record : Value) :
    (isMet (.text d) record).result = (parse d).bind fun r => r.isMet record := by
  rw [isMet, parseValue]
  cases h : parse d with
  | error f => rw [Traced.result_bind_error (e := f) _ (by simp [h])]; rfl
  | ok r => rw [Traced.result_bind_ok (a := r) _ (by simp [h])]; rfl

/-- Requirements that can be written are exactly what descriptors stand for,
notes apart. A descriptor and the canonical form of what it stands for are met
by the same records. -/
theorem canonical_form :
    (∀ (d : String) (r : Requirement), parse d = .ok r → r.IsCanonical)
    ∧ (∀ r : Requirement, r.IsCanonical → parse r.render = .ok { r with notes :=
        if r.type = .unknown then [.unknownType r.token] else [] })
    ∧ ∀ (d : String) (r : Requirement) (record : Value), parse d = .ok r →
        (isMet (.text d) record).result = (isMet (.text r.render) record).result := by
  refine ⟨fun d r h => isCanonical_of_parse h, fun r h => ?_, fun d r record h => ?_⟩
  · rw [parse_render_of_isCanonical h, typeNotes, ← h.type_eq]
  · rw [result_isMet_text, result_isMet_text, h,
      parse_render_of_isCanonical (isCanonical_of_parse h)]
    exact (isMet_notes r _ record).symm

/-- What the descriptor `*(strng@ 07 @x)a//b(` stands for: a part too many, a
padded length, an unknown token, an empty segment, a parenthesis in the path. -/
def degraded : Requirement where
  truthy := true
  type := .unknown
  maxLength := some 7
  path := ["a", "", "b("]
  token := "strng"
  notes := [.extraParts ["x"], .unknownType "strng"]

theorem canonical_form_of_degraded :
    parse "*(strng@ 07 @x)a//b(" = .ok degraded ∧ degraded.IsCanonical
      ∧ degraded.render = "*(strng@7)a//b("
      ∧ parse degraded.render = .ok { degraded with notes := [.unknownType "strng"] }
      ∧ (isMet (.text "*(strng@ 07 @x)a//b(") (.dict [(.text "a", .null)])).result
        = (isMet (.text degraded.render) (.dict [(.text "a", .null)])).result := by
  have hparse : parse "*(strng@ 07 @x)a//b(" = .ok degraded := rfl
  have hcanonical := canonical_form.1 _ _ hparse
  exact ⟨hparse, hcanonical, rfl, canonical_form.2.1 _ hcanonical,
    canonical_form.2.2 _ _ _ hparse⟩

end Descriptor

end FieldCheck
