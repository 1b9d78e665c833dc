/-
FieldCheck.Proofs.Descriptor.Overlong — the descriptors that cannot be read.

Reading degrades: what is malformed in a descriptor is noted, and the descriptor
still stands for a requirement. There is one exception. A length that is made of
digits is turned into a number without a look at how many digits there are, and
only so many can be read. `Overlong` is the form of the descriptors for which
this happens. It is stated without the functions that cut a descriptor up.

* `parse_eq_error_iff` — a descriptor is a fault exactly when it has this form,
  and the fault tells the number of digits.
* `exists_discover_iff` — discovery has findings on a list of descriptors and
  groups exactly when no member has this form.

Each stage of reading is turned around once: what a piece of a descriptor says
about the text that it was cut from (`Text.exists_trim`, `length_constraintPieces_iff`,
`length_splitConstraint_iff`).
-/
import FieldCheck.Proofs.Check.Discovery

namespace FieldCheck

/-! ## Trimming turned around -/

namespace Text

open FieldCheck.Numeral (AreBlanks)

theorem exists_trimEnd (cs : List Char) : ∃ back, AreBlanks back ∧ cs = trimEnd cs ++ back := by
  refine ⟨(cs.reverse.takeWhile isBlank).reverse, fun c hc => ?_, ?_⟩
  · exact List.all_eq_true.1 List.all_takeWhile c (List.mem_reverse.1 hc)
  · rw [trimEnd, ← List.reverse_append, List.takeWhile_append_dropWhile, List.reverse_reverse]

/-- What a text is trimmed to has blanks around it in the text, and nothing else. -/
theorem exists_trim (cs : List Char) :
    ∃ front back, AreBlanks front ∧ AreBlanks back ∧ cs = front ++ (trim cs ++ back) := by
  obtain ⟨back, hback, heq⟩ := exists_trimEnd (cs.dropWhile isBlank)
  refine ⟨cs.takeWhile isBlank, back, List.all_eq_true.1 List.all_takeWhile, hback, ?_⟩
  rw [trim, ← heq, List.takeWhile_append_dropWhile]

/-- A text that is no blank at either end is what it is trimmed to, with blanks around it. -/
theorem trim_append {front kept back : List Char} (hfront : AreBlanks front)
    (hkept : ∀ c ∈ kept, isBlank c = false) (hback : AreBlanks back) :
    trim (front ++ (kept ++ back)) = kept := by
  have hdrop : (front ++ (kept ++ back)).dropWhile isBlank = (kept ++ back).dropWhile isBlank :=
    List.dropWhile_append_of_pos hfront
  cases kept with
  | nil =>
    refine trim_of_all_blank fun c hc => ?_
    rcases List.mem_append.1 hc with hc | hc
    · exact hfront c hc
    · exact hback c hc
  | cons k kept =>
    have hstop : (back.reverse ++ (k :: kept).reverse).dropWhile isBlank = (k :: kept).reverse := by
      refine Numeral.dropWhile_append_of_stopsAt (fun c hc => hback c (List.mem_reverse.1 hc)) ?_
      intro c hc
      exact hkept c (List.mem_reverse.1 (List.mem_of_mem_head? hc))
    rw [trim, hdrop, List.cons_append, List.dropWhile_cons_of_neg (by simp [hkept k (by simp)]),
      trimEnd, ← List.cons_append, List.reverse_append, hstop, List.reverse_reverse]

end Text

namespace Descriptor

open FieldCheck.Numeral (AreBlanks)

/-! ## Cutting turned around -/

/-- What may follow the second part of a constraint: nothing, or a further part. -/
def StartsPart (extra : List Char) : Prop := ∀ c ∈ extra.head?, c = '@'

theorem exists_startsPart (parts : List (List Char)) :
    ∃ extra, StartsPart extra
      ∧ ∀ first : List Char, ['@'].intercalate (first :: parts) = first ++ extra := by
  cases parts with
  | nil => exact ⟨[], by simp [StartsPart], fun first => by simp⟩
  | cons part rest =>
    refine ⟨'@' :: ['@'].intercalate (part :: rest), by simp [StartsPart], fun first => ?_⟩
    rw [List.intercalate_cons_cons]
    simp

theorem splitOn_startsPart {length extra : List Char} (hlength : '@' ∉ length)
    (hextra : StartsPart extra) : ∃ parts, (length ++ extra).splitOn '@' = length :: parts := by
  cases extra with
  | nil => exact ⟨[], by rw [List.append_nil, List.splitOn_eq_singleton hlength]⟩
  | cons c extra =>
    obtain rfl : c = '@' := hextra c rfl
    exact ⟨_, List.splitOn_append_cons_self_of_not_mem hlength _⟩

/-- The length of a constraint stands behind its first `@`, up to the second. -/
theorem length_constraintPieces_iff {constraint length : List Char} (path : List Char) :
    (constraintPieces constraint path).length = some length
      ↔ ∃ token extra, constraint = token ++ '@' :: (length ++ extra) ∧ '@' ∉ token
        ∧ '@' ∉ length ∧ StartsPart extra := by
  constructor
  · intro h
    have hjoin : ['@'].intercalate (constraint.splitOn '@') = constraint :=
      List.intercalate_splitOn '@'
    have hpart : ∀ part ∈ constraint.splitOn '@', '@' ∉ part := fun part hmem hc =>
      (mem_and_ne_of_mem_splitOn hmem hc).2 rfl
    rw [constraintPieces] at h
    split at h
    · cases h
    · cases h
    · rename_i token length' parts hs
      cases h
      rw [hs] at hjoin hpart
      obtain ⟨extra, hextra, hrest⟩ := exists_startsPart parts
      refine ⟨token, extra, ?_, hpart token (by simp), hpart length (by simp), hextra⟩
      rw [← hjoin, List.intercalate_cons_cons, hrest]
      simp
  · rintro ⟨token, extra, rfl, htoken, hlength, hextra⟩
    obtain ⟨parts, hparts⟩ := splitOn_startsPart hlength hextra
    rw [constraintPieces, List.splitOn_append_cons_self_of_not_mem htoken, hparts]

/-- The length of a descriptor is that of its constraint, which ends at the first `)`. -/
theorem length_splitConstraint_iff {cs length : List Char} :
    (splitConstraint cs).length = some length
      ↔ ∃ constraint path, cs = '(' :: (constraint ++ ')' :: path) ∧ ')' ∉ constraint
        ∧ (constraintPieces constraint path).length = some length := by
  constructor
  · intro h
    unfold splitConstraint at h
    split at h
    · rename_i rest
      split at h
      · rename_i c path hdrop
        have hclose : c = ')' := by
          have hhead := List.head?_dropWhile_not (· != ')') rest
          rw [hdrop] at hhead
          simpa using hhead
        subst hclose
        refine ⟨rest.takeWhile (· != ')'), path, ?_, fun hmem => ?_, h⟩
        · rw [← hdrop, List.takeWhile_append_dropWhile]
        · have := List.all_eq_true.1 (List.all_takeWhile (p := (· != ')')) (l := rest)) _ hmem
          simp at this
      · cases h
    · cases h
  · rintro ⟨constraint, path, rfl, hclose, hlength⟩
    rw [splitConstraint_group hclose, hlength]

theorem splitMarker_append {marker rest : List Char} (hmarker : marker = [] ∨ marker = ['*']) :
    (splitMarker (marker ++ '(' :: rest)).2 = '(' :: rest := by
  rcases hmarker with rfl | rfl <;> rfl

theorem exists_splitMarker (cs : List Char) :
    ∃ marker, (marker = [] ∨ marker = ['*']) ∧ cs = marker ++ (splitMarker cs).2 := by
  unfold splitMarker
  split
  · exact ⟨['*'], .inr rfl, rfl⟩
  · exact ⟨[], .inl rfl, rfl⟩

/-! ## Overlong descriptors -/

/-- A descriptor whose constraint has a length of `n` digits, with or without
blanks around it, and more of them than can be read. Further parts of the
constraint and the path may be anything. -/
inductive Overlong : List Char → Nat → Prop
  | digits {marker token front run back extra path : List Char}
      (hmarker : marker = [] ∨ marker = ['*']) (htoken : '@' ∉ token ∧ ')' ∉ token)
      (hfront : AreBlanks front) (hrun : ∀ c ∈ run, c.isDigit = true) (hback : AreBlanks back)
      (hextra : StartsPart extra ∧ ')' ∉ extra) (hlimit : Decimal.digitLimit < run.length) :
      Overlong (marker ++ '(' :: (token ++ '@' :: (front ++ (run ++ back) ++ extra) ++ ')' :: path))
        run.length

theorem not_mem_of_areBlanks {cs : List Char} (h : AreBlanks cs) {c : Char}
    (hc : Text.isBlank c = false) : c ∉ cs := fun hmem => by
  rw [h c hmem] at hc
  cases hc

theorem not_mem_of_areDigits {cs : List Char} (h : ∀ c ∈ cs, c.isDigit = true) {c : Char}
    (hc : c.isDigit = false) : c ∉ cs := fun hmem => by
  rw [h c hmem] at hc
  cases hc

/-- A length is too long to read exactly when it is a run of too many digits
with blanks around it. -/
theorem readLength_eq_error_iff_run {length : List Char} {f : Fault} :
    readLength length = .error f ↔ ∃ front run back, length = front ++ (run ++ back)
      ∧ AreBlanks front ∧ (∀ c ∈ run, c.isDigit = true) ∧ AreBlanks back
      ∧ Decimal.digitLimit < run.length ∧ f = .tooLongToRead run.length := by
  rw [readLength_eq_error_iff]
  constructor
  · rintro ⟨hrun, hlimit, hf⟩
    obtain ⟨front, back, hfront, hback, heq⟩ := Text.exists_trim length
    rw [isLength, Bool.and_eq_true, List.all_eq_true] at hrun
    exact ⟨front, Text.trim length, back, heq, hfront, hrun.2, hback, hlimit, hf⟩
  · rintro ⟨front, run, back, rfl, hfront, hrun, hback, hlimit, hf⟩
    have htrim : Text.trim (front ++ (run ++ back)) = run :=
      Text.trim_append hfront (fun c hc => Text.isBlank_of_isDigit (hrun c hc)) hback
    have hne : run ≠ [] := List.ne_nil_of_length_pos (Nat.zero_lt_of_lt hlimit)
    rw [htrim, isLength, Bool.and_eq_true, List.all_eq_true]
    exact ⟨⟨by simp [hne], hrun⟩, hlimit, hf⟩

theorem bound_eq_error_iff {length : Option (List Char)} {f : Fault} :
    bound length = .error f ↔ ∃ token, length = some token ∧ readLength token = .error f := by
  cases length with
  | none => simp [bound]
  | some token =>
    have hmap : bound (some token) = .error f ↔ readLength token = .error f := by
      rw [bound]
      cases readLength token <;> simp [Except.map]
    simp [hmap]

/-- A descriptor is a fault exactly when it is overlong. -/
theorem parse_eq_error_iff (d : String) (f : Fault) :
    parse d = .error f ↔ ∃ n, Overlong d.toList n ∧ f = .tooLongToRead n := by
  have hparse : parse d = .error f
      ↔ bound (splitConstraint (splitMarker d.toList).2).length = .error f := by
    rw [parse, parseChars, parseUnmarked]
    cases bound (splitConstraint (splitMarker d.toList).2).length <;> simp [Except.map]
  rw [hparse, bound_eq_error_iff]
  constructor
  · rintro ⟨length, hlength, hread⟩
    obtain ⟨constraint, path, hcs, hclose, hpieces⟩ := length_splitConstraint_iff.1 hlength
    obtain ⟨token, extra, rfl, htoken, -, hextra⟩ := (length_constraintPieces_iff path).1 hpieces
    obtain ⟨front, run, back, rfl, hfront, hrun, hback, hlimit, hf⟩ :=
      readLength_eq_error_iff_run.1 hread
    obtain ⟨marker, hmarker, hd⟩ := exists_splitMarker d.toList
    simp only [List.mem_append, List.mem_cons, not_or] at hclose
    refine ⟨run.length, ?_, hf⟩
    rw [hd, hcs]
    exact .digits hmarker ⟨htoken, hclose.1⟩ hfront hrun hback ⟨hextra, hclose.2.2.2⟩ hlimit
  · rintro ⟨n, hover, rfl⟩
    generalize d.toList = cs at hover
    obtain ⟨hmarker, htoken, hfront, hrun, hback, hextra, hlimit⟩ := hover
    rename_i marker token front run back extra path
    refine ⟨front ++ (run ++ back), ?_, readLength_eq_error_iff_run.2
      ⟨front, run, back, rfl, hfront, hrun, hback, hlimit, rfl⟩⟩
    rw [splitMarker_append hmarker]
    have hplain : ∀ c, Text.isBlank c = false → c.isDigit = false → c ∉ front ++ (run ++ back) := by
      intro c hblank hdigit
      simp only [List.mem_append, not_or]
      exact ⟨not_mem_of_areBlanks hfront hblank, not_mem_of_areDigits hrun hdigit,
        not_mem_of_areBlanks hback hblank⟩
    refine length_splitConstraint_iff.2 ⟨_, path, rfl, ?_, ?_⟩
    · have hclose := hplain ')' (by decide) (by decide)
      simp only [List.mem_append, List.mem_cons, not_or] at hclose ⊢
      exact ⟨htoken.2, by decide, hclose, hextra.2⟩
    · exact (length_constraintPieces_iff path).2
        ⟨token, extra, rfl, htoken.1, hplain '@' (by decide) (by decide), hextra.1⟩

/-- Every other text stands for a requirement. -/
theorem exists_parse_iff (d : String) :
    (∃ r, parse d = .ok r) ↔ ∀ n, ¬ Overlong d.toList n := by
  cases h : parse d with
  | ok r =>
    refine ⟨fun _ n hover => ?_, fun _ => ⟨r, rfl⟩⟩
    have hfault := (parse_eq_error_iff d _).2 ⟨n, hover, rfl⟩
    rw [h] at hfault
    cases hfault
  | error f =>
    obtain ⟨n, hover, -⟩ := (parse_eq_error_iff d f).1 h
    refine ⟨?_, fun hnone => absurd hover (hnone n)⟩
    rintro ⟨r, hr⟩
    cases hr

end Descriptor

/-! ## Discovery -/

open Descriptor FieldCheck.Numeral

theorem exists_describe {d : String} (h : ∃ r, parse d = .ok r) :
    ∃ found, (describe (.text d)).result = .ok found := by
  obtain ⟨r, hr⟩ := h
  exact ⟨⟨d, r⟩, Traced.result_bind_ok (a := r) _ (by rw [result_parseLogged, hr])⟩

theorem exists_describeAll {ds : List String} (h : ∀ d ∈ ds, ∃ r, parse d = .ok r) :
    ∃ found, (describeAll (ds.map .text)).result = .ok found := by
  induction ds with
  | nil => exact ⟨[], rfl⟩
  | cons d ds ih =>
    obtain ⟨first, hfirst⟩ := exists_describe (h d (by simp))
    obtain ⟨others, hothers⟩ := ih fun e he => h e (List.mem_cons_of_mem d he)
    refine ⟨first :: others, ?_⟩
    rw [List.map_cons, describeAll, Traced.result_bind_ok _ hfirst, Traced.result_bind_ok _ hothers]
    rfl

theorem exists_discoverItem {i : TextItem} (h : i.IsReadable) :
    ∃ found, (discoverItem (Item.ofValue i.toValue)).result = .ok found := by
  have hgroup : ∀ ds : List String, (∀ d ∈ ds, ∃ r, parse d = .ok r) →
      ∃ found, (discoverItem (.group (ds.map .text))).result = .ok found := by
    intro ds hds
    obtain ⟨found, hfound⟩ := exists_describeAll hds
    refine ⟨.group (Item.memberSeparator.intercalate ds) found, ?_⟩
    rw [discoverItem, Traced.result_bind_ok _ (Item.groupLabel_texts ds),
      Traced.result_bind_ok _ hfound]
    rfl
  cases i with
  | single d =>
    obtain ⟨found, hfound⟩ := exists_describe (h d (by simp [TextItem.members]))
    exact ⟨.single found, Traced.result_bind_ok _ hfound⟩
  | list ds => exact hgroup ds h
  | tuple ds => exact hgroup ds h

theorem exists_discoverItems {items : List TextItem} (h : ∀ i ∈ items, i.IsReadable) :
    ∃ found, (discoverItems ((items.map TextItem.toValue).map Item.ofValue)).result = .ok found := by
  induction items with
  | nil => exact ⟨[], rfl⟩
  | cons i rest ih =>
    obtain ⟨first, hfirst⟩ := exists_discoverItem (h i (by simp))
    obtain ⟨others, hothers⟩ := ih fun j hj => h j (List.mem_cons_of_mem i hj)
    refine ⟨first :: others, ?_⟩
    rw [List.map_cons, List.map_cons, discoverItems, Traced.result_bind_ok _ hfirst,
      Traced.result_bind_ok _ hothers]
    rfl

/-- Discovery has findings on items made of texts exactly when each of them can be read. -/
theorem exists_discover_iff {descriptors : Value} {items : List TextItem}
    (hitems : Lists descriptors items) :
    (∃ found, (discover descriptors).result = .ok found) ↔ ∀ i ∈ items, i.IsReadable := by
  constructor
  · rintro ⟨found, hfound⟩ i hi
    obtain ⟨f, -, hf⟩ := exists_mem_of_forall₂ (isOn_of_discover hitems hfound).flip hi
    exact Finding.IsOn.isReadable hf
  · intro h
    obtain ⟨found, hfound⟩ := exists_discoverItems h
    exact ⟨found, (Traced.result_bind_ok _ hitems.listOf_eq).trans hfound⟩

/-- Every text is a descriptor, and discovery has findings on every list of
descriptors and groups of them, unless a descriptor is overlong. For that one,
reading is a fault that tells its number of digits. -/
theorem readable_unless_overlong (d : String) {descriptors : Value} {items : List TextItem}
    (hitems : Lists descriptors items) :
    ((∃ r, parse d = .ok r) ↔ ∀ n, ¬ Overlong d.toList n)
    ∧ (∀ n, Overlong d.toList n → parse d = .error (.tooLongToRead n))
    ∧ ((∃ found, (discover descriptors).result = .ok found)
        ↔ ∀ i ∈ items, ∀ e ∈ i.members, ∀ n, ¬ Overlong e.toList n) := by
  refine ⟨exists_parse_iff d, fun n hover => (parse_eq_error_iff d _).2 ⟨n, hover, rfl⟩, ?_⟩
  rw [exists_discover_iff hitems]
  refine forall₂_congr fun i _ => ?_
  rw [TextItem.IsReadable]
  exact forall₂_congr fun e _ => exists_parse_iff e

/-! ## A length of too many digits -/

/-- The descriptor `(int@…)a` with a run of digits for its length. -/
def boundedBy (run : List Char) : String :=
  String.ofList (['(', 'i', 'n', 't', '@'] ++ (run ++ [')', 'a']))

theorem overlong_boundedBy {run : List Char} (hrun : ∀ c ∈ run, c.isDigit = true)
    (hlimit : Decimal.digitLimit < run.length) : Overlong (boundedBy run).toList run.length := by
  have hnone : AreBlanks [] := by simp [AreBlanks]
  have hover := @Overlong.digits [] ['i', 'n', 't'] [] run [] [] ['a'] (.inl rfl) (by decide) hnone
    hrun hnone (by simp [StartsPart]) hlimit
  rw [List.append_nil, List.append_nil, List.append_assoc] at hover
  rw [boundedBy, String.toList_ofList]
  exact hover

/-- A length of one digit more than can be read. -/
def longRun : List Char := List.replicate (Decimal.digitLimit + 1) '1'

theorem overlong_longRun : Overlong (boundedBy longRun).toList 4301 := by
  have hlength : longRun.length = 4301 := List.length_replicate
  rw [← hlength]
  refine overlong_boundedBy (fun c hc => ?_) ?_
  · rw [List.eq_of_mem_replicate hc]
    rfl
  · rw [hlength]
    decide

/-- With a run of 5000 nines for its length a descriptor is a fault, and a group
with it as a member stops discovery; the other member alone does not. -/
theorem readable_unless_overlong_nines :
    parse (boundedBy (List.replicate 5000 '9')) = .error (.tooLongToRead 5000)
      ∧ (¬ ∃ found, (discover (.list [.tuple [.text "a",
        .text (boundedBy (List.replicate 5000 '9'))]])).result = .ok found)
      ∧ ∃ found, (discover (.list [.tuple [.text "a"]])).result = .ok found := by
  have hover : Overlong (boundedBy (List.replicate 5000 '9')).toList 5000 := by
    have hrun : ∀ c ∈ List.replicate 5000 '9', c.isDigit = true := fun c hc => by
      rw [List.eq_of_mem_replicate hc]
      rfl
    have h := overlong_boundedBy hrun (by rw [List.length_replicate]; decide)
    rwa [List.length_replicate] at h
  have hgroup := readable_unless_overlong (boundedBy (List.replicate 5000 '9'))
    (lists_list [.tuple ["a", boundedBy (List.replicate 5000 '9')]])
  have hplain := readable_unless_overlong "a" (lists_list [.tuple ["a"]])
  refine ⟨hgroup.2.1 _ hover, fun hfound => ?_, hplain.2.2.2 ?_⟩
  · exact hgroup.2.2.1 hfound _ (List.mem_singleton_self _) _
      (List.mem_cons_of_mem "a" (List.mem_singleton_self _)) 5000 hover
  · simp only [List.mem_singleton, TextItem.members, forall_eq]
    exact hplain.1.1 ⟨_, rfl⟩

/-- Not every text is a descriptor, and discovery does not have findings on
every list of texts. -/
theorem not_parse_longRun :
    parse (boundedBy longRun) = .error (.tooLongToRead 4301)
      ∧ ∀ found, (discover (.list [.text (boundedBy longRun)])).result ≠ .ok found := by
  have hparse : parse (boundedBy longRun) = .error (.tooLongToRead 4301) :=
    (parse_eq_error_iff _ _).2 ⟨4301, overlong_longRun, rfl⟩
  refine ⟨hparse, fun found hfound => ?_⟩
  have hread := (exists_discover_iff (lists_list [.single (boundedBy longRun)])).1 ⟨found, hfound⟩
  obtain ⟨r, hr⟩ := hread _ (List.mem_singleton_self _) _ (List.mem_singleton_self _)
  rw [hparse] at hr
  cases hr

end FieldCheck
