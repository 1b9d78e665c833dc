/-
FieldCheck.Proofs.Json.LineEnds — with which line ends a text of JSON is written.

A file is read with a line feed for every line end, and what comes from the network
as it is. Between the tokens of JSON a line end is a blank, and inside of a token or a
text there is none, so both ways lead to the same value (`read_unified_iff`). The
texts differ in their lengths, and with them the fuel and the places in complaints.

Both texts are compared with a third one: `squeezed` writes one line feed for each
run of line ends. What a scanner returns for a text and for the squeezed text
`Agrees`: the same value and the squeezed rest, or a refusal in both cases. There is
one lemma for each scanner. A number ends where its digits do, and for a text it is
enough that nothing behind its closing mark has an influence.
-/
import FieldCheck.Proofs.Json.Extent
import FieldCheck.Text.Lines

namespace FieldCheck

/-! ## Runs of line ends -/

namespace Text

/-- A character that ends a line. -/
def isLineEnd (c : Char) : Bool := c == '\n' || c == '\r'

theorem isLineEnd_iff (c : Char) : isLineEnd c = true ↔ c = '\n' ∨ c = '\r' := by simp [isLineEnd]

/-- One line feed for each run of line ends. A run may go on in front of the text. -/
def squeezedFrom (inside : Bool) : List Char → List Char
  | [] => []
  | c :: cs =>
    if isLineEnd c then
      if inside then squeezedFrom true cs else '\n' :: squeezedFrom true cs
    else c :: squeezedFrom false cs

/-- The text with one line feed for each run of line ends. -/
def squeezed (cs : List Char) : List Char := squeezedFrom false cs

@[simp] theorem squeezed_nil : squeezed [] = [] := rfl

theorem squeezedFrom_of_plain (inside : Bool) {c : Char} (h : isLineEnd c = false) (cs : List Char) :
    squeezedFrom inside (c :: cs) = c :: squeezed cs := by
  rw [squeezedFrom, h, squeezed]
  rfl

/-- A squeezed text begins with the same character, if that is not a line end. -/
theorem squeezed_cases (cs : List Char) :
    cs = [] ∨ (∃ c rest, isLineEnd c = false ∧ cs = c :: rest ∧ squeezed cs = c :: squeezed rest)
      ∨ ∃ c rest tail, (c = '\n' ∨ c = '\r') ∧ cs = c :: rest ∧ squeezed cs = '\n' :: tail := by
  cases cs with
  | nil => exact .inl rfl
  | cons c rest =>
    cases hc : isLineEnd c with
    | false => exact .inr (.inl ⟨c, rest, hc, rfl, squeezedFrom_of_plain false hc rest⟩)
    | true =>
      refine .inr (.inr ⟨c, rest, squeezedFrom true rest, (isLineEnd_iff c).1 hc, rfl, ?_⟩)
      rw [squeezed, squeezedFrom, hc]
      rfl

theorem squeezed_eq_nil_iff (cs : List Char) : squeezed cs = [] ↔ cs = [] := by
  obtain rfl | ⟨c, rest, -, rfl, hsq⟩ | ⟨c, rest, tail, -, rfl, hsq⟩ := squeezed_cases cs
  · simp
  · simp [hsq]
  · simp [hsq]

theorem squeezed_append {front : List Char} (h : ∀ c ∈ front, isLineEnd c = false)
    (cs : List Char) : squeezed (front ++ cs) = front ++ squeezed cs := by
  induction front with
  | nil => rfl
  | cons c front ih =>
    rw [List.forall_mem_cons] at h
    rw [List.cons_append, squeezed, squeezedFrom_of_plain false h.1, ih h.2, List.cons_append]

/-- What a squeezed text begins with, the text does, if there is no line end in it. -/
theorem exists_of_squeezed_eq {front tail : List Char} (h : ∀ c ∈ front, isLineEnd c = false)
    {cs : List Char} (hcs : squeezed cs = front ++ tail) :
    ∃ rest, cs = front ++ rest ∧ squeezed rest = tail := by
  induction front generalizing cs with
  | nil => exact ⟨cs, rfl, hcs⟩
  | cons c front ih =>
    rw [List.forall_mem_cons] at h
    obtain rfl | ⟨d, rest, -, rfl, hsq⟩ | ⟨d, rest, left, -, rfl, hsq⟩ := squeezed_cases cs
    · cases hcs
    · rw [hsq, List.cons_append, List.cons.injEq] at hcs
      obtain ⟨rest', rfl, hrest'⟩ := ih h.2 hcs.2
      exact ⟨rest', by rw [hcs.1, List.cons_append], hrest'⟩
    · rw [hsq, List.cons_append, List.cons.injEq] at hcs
      rw [← hcs.1] at h
      exact absurd h.1 (by decide)

/-- Texts that are squeezed to the same one, wherever they stand, are so behind a third one. -/
theorem squeezedFrom_append_congr {cs ds : List Char}
    (h : ∀ inside, squeezedFrom inside cs = squeezedFrom inside ds) (front : List Char)
    (inside : Bool) : squeezedFrom inside (front ++ cs) = squeezedFrom inside (front ++ ds) := by
  induction front generalizing inside with
  | nil => exact h inside
  | cons c front ih =>
    rw [List.cons_append, List.cons_append, squeezedFrom, squeezedFrom, ih, ih]

theorem squeezed_unifiedOnto (done cs : List Char) :
    squeezed (unifiedOnto done cs) = squeezed (done.reverse ++ cs) := by
  fun_induction unifiedOnto done cs with
  | case1 done rest ih =>
    rw [ih, List.reverse_cons, List.append_assoc]
    exact squeezedFrom_append_congr (fun inside => by cases inside <;> rfl) _ _
  | case2 done rest _ ih =>
    rw [ih, List.reverse_cons, List.append_assoc]
    exact squeezedFrom_append_congr (fun inside => by cases inside <;> rfl) _ _
  | case3 done c rest _ _ ih =>
    rw [ih, List.reverse_cons, List.append_assoc]
    rfl
  | case4 done => rw [List.append_nil]

/-- To write every line end as a line feed changes no run of line ends into anything else. -/
theorem squeezed_unified (cs : List Char) : squeezed (unified cs) = squeezed cs :=
  squeezed_unifiedOnto [] cs

section

variable {p : Char → Bool} (hp : ∀ c, isLineEnd c = true → p c = false)

include hp

theorem takeWhile_squeezed (cs : List Char) : (squeezed cs).takeWhile p = cs.takeWhile p := by
  induction cs with
  | nil => rfl
  | cons c cs ih =>
    obtain h | ⟨d, rest, -, heq, hsq⟩ | ⟨d, rest, tail, hd, heq, hsq⟩ := squeezed_cases (c :: cs)
    · cases h
    · cases heq
      rw [hsq, List.takeWhile_cons, List.takeWhile_cons, ih]
    · cases heq
      rw [hsq, List.takeWhile_cons, List.takeWhile_cons, hp _ (by decide),
        hp c ((isLineEnd_iff c).2 hd)]
      rfl

theorem dropWhile_squeezed (cs : List Char) :
    (squeezed cs).dropWhile p = squeezed (cs.dropWhile p) := by
  induction cs with
  | nil => rfl
  | cons c cs ih =>
    obtain h | ⟨d, rest, -, heq, hsq⟩ | ⟨d, rest, tail, hd, heq, hsq⟩ := squeezed_cases (c :: cs)
    · cases h
    · cases heq
      rw [hsq, List.dropWhile_cons, List.dropWhile_cons, ih]
      split
      · rfl
      · rw [hsq]
    · cases heq
      rw [hsq, List.dropWhile_cons, List.dropWhile_cons, hp _ (by decide),
        hp c ((isLineEnd_iff c).2 hd)]
      simp [hsq]

end

end Text

namespace Json

open Text

/-! ## Blanks and numbers -/

theorem skipGap_squeezedFrom (inside : Bool) (cs : List Char) :
    skipGap (squeezedFrom inside cs) = squeezed (skipGap cs) := by
  induction cs generalizing inside with
  | nil => rfl
  | cons c cs ih =>
    cases hc : isLineEnd c with
    | true =>
      have hgap : isGap c = true := by
        obtain rfl | rfl := (isLineEnd_iff c).1 hc <;> rfl
      rw [squeezedFrom, hc, skipGap, skipGap, List.dropWhile_cons_of_pos hgap]
      cases inside with
      | true => exact ih true
      | false => exact ih true
    | false =>
      rw [squeezedFrom_of_plain inside hc, skipGap, skipGap, List.dropWhile_cons,
        List.dropWhile_cons]
      split
      · exact ih false
      · exact (squeezedFrom_of_plain false hc cs).symm

theorem skipGap_squeezed (cs : List Char) : skipGap (squeezed cs) = squeezed (skipGap cs) :=
  skipGap_squeezedFrom false cs

theorem isDigit_of_isLineEnd (c : Char) (h : isLineEnd c = true) : c.isDigit = false := by
  obtain rfl | rfl := (isLineEnd_iff c).1 h <;> rfl

theorem spanDigits_squeezed (cs : List Char) :
    spanDigits (squeezed cs) = ((spanDigits cs).1, squeezed (spanDigits cs).2) := by
  rw [spanDigits, takeWhile_squeezed isDigit_of_isLineEnd, dropWhile_squeezed isDigit_of_isLineEnd]
  rfl

theorem scanWhole_squeezed (cs : List Char) :
    scanWhole (squeezed cs) = (scanWhole cs).map fun p => (p.1, squeezed p.2) := by
  obtain rfl | ⟨c, rest, -, rfl, hsq⟩ | ⟨c, rest, tail, hc, rfl, hsq⟩ := squeezed_cases cs
  · rfl
  · have hspan := spanDigits_squeezed (c :: rest)
    rw [hsq] at hspan ⊢
    by_cases hzero : c = '0'
    · subst hzero
      rfl
    · rw [scanWhole, scanWhole, hspan]
      · split <;> rfl
      · exact hzero
      · exact hzero
  · rw [hsq]
    obtain rfl | rfl := hc <;> rfl

theorem scanFraction_squeezed (cs : List Char) :
    scanFraction (squeezed cs) = ((scanFraction cs).1, squeezed (scanFraction cs).2) := by
  obtain rfl | ⟨c, rest, -, rfl, hsq⟩ | ⟨c, rest, tail, hc, rfl, hsq⟩ := squeezed_cases cs
  · rfl
  · by_cases hpoint : c = '.'
    · subst hpoint
      have hspan := spanDigits_squeezed rest
      cases hdigits : spanDigits rest with
      | mk ds left =>
        rw [hdigits] at hspan
        rw [hsq, scanFraction, scanFraction, hspan, hdigits]
        cases ds with
        | nil => rw [← hsq]
        | cons d ds => rfl
    · have hnone : ∀ tail, scanFraction (c :: tail) = ([], c :: tail) := by
        intro tail
        rw [scanFraction]
        exact fun _ h => hpoint (List.cons.inj h).1
      rw [hsq, hnone, hnone, ← hsq]
  · rw [hsq]
    obtain rfl | rfl := hc <;> exact congrArg (Prod.mk []) hsq.symm

theorem splitSign_squeezed (cs : List Char) :
    Decimal.splitSign (squeezed cs)
      = ((Decimal.splitSign cs).1, squeezed (Decimal.splitSign cs).2) := by
  obtain rfl | ⟨c, rest, -, rfl, hsq⟩ | ⟨c, rest, tail, hc, rfl, hsq⟩ := squeezed_cases cs
  · rfl
  · rw [hsq]
    by_cases hminus : c = '-'
    · subst hminus
      rfl
    by_cases hplus : c = '+'
    · subst hplus
      rfl
    have hnone : ∀ tail, Decimal.splitSign (c :: tail) = (false, c :: tail) := by
      intro tail
      rw [Decimal.splitSign]
      · exact fun _ h => hminus (List.cons.inj h).1
      · exact fun _ h => hplus (List.cons.inj h).1
    rw [hnone, hnone, ← hsq]
  · rw [hsq]
    obtain rfl | rfl := hc <;> exact congrArg (Prod.mk false) hsq.symm

theorem scanExponent_squeezed (cs : List Char) :
    scanExponent (squeezed cs) = ((scanExponent cs).1, squeezed (scanExponent cs).2) := by
  obtain rfl | ⟨c, rest, -, rfl, hsq⟩ | ⟨c, rest, tail, hc, rfl, hsq⟩ := squeezed_cases cs
  · rfl
  · have hsign := splitSign_squeezed rest
    rw [hsq, scanExponent, scanExponent, hsign]
    split
    · cases Decimal.splitSign rest with
      | mk negative behind =>
        have hspan := spanDigits_squeezed behind
        cases hdigits : spanDigits behind with
        | mk ds left =>
          rw [hdigits] at hspan
          dsimp only
          rw [hspan, hdigits]
          cases ds with
          | nil => rw [← hsq]
          | cons d ds => rfl
    · rw [← hsq]
  · rw [hsq]
    obtain rfl | rfl := hc <;> exact congrArg (Prod.mk none) hsq.symm

/-- What a scanner returns for a text, with the rest squeezed. -/
def withSqueezed {α : Type} (r : Scan α) : Scan α := r.map fun p => (p.1, squeezed p.2)

theorem scanMagnitude_squeezed (negative : Bool) (cs : List Char) :
    scanMagnitude negative (squeezed cs) = (scanMagnitude negative cs).map withSqueezed := by
  rw [scanMagnitude, scanMagnitude, scanWhole_squeezed, Option.map_map, Option.map_map]
  congr 1
  funext p
  dsimp only [Function.comp_apply]
  rw [scanFraction_squeezed, scanExponent_squeezed]
  split
  · split <;> rfl
  · rfl

theorem scanNumber_squeezed (cs : List Char) :
    scanNumber (squeezed cs) = (scanNumber cs).map withSqueezed := by
  obtain rfl | ⟨c, rest, -, rfl, hsq⟩ | ⟨c, rest, tail, hc, rfl, hsq⟩ := squeezed_cases cs
  · rfl
  · by_cases hminus : c = '-'
    · subst hminus
      rw [hsq]
      exact scanMagnitude_squeezed true rest
    · have hplain : ∀ tail, scanNumber (c :: tail) = scanMagnitude false (c :: tail) := by
        intro tail
        rw [scanNumber]
        exact fun _ h => hminus (List.cons.inj h).1
      rw [hsq, hplain, hplain, ← hsq, scanMagnitude_squeezed]
  · rw [hsq]
    obtain rfl | rfl := hc <;> rfl

/-! ## What scanners agree on -/

/-- What a scanner returns for a text, and what it returns for the squeezed one: a
value with the rest squeezed, or a refusal of both. -/
inductive Agrees {α : Type} : Scan α → Scan α → Prop where
  | ok (a : α) (rest : List Char) : Agrees (.ok (a, rest)) (.ok (a, squeezed rest))
  | error (e e' : Refusal) : Agrees (.error e) (.error e')

/-- A scanner agrees on every text and the squeezed one. -/
def LooksPast {α : Type} (scanner : List Char → Scan α) : Prop :=
  ∀ cs, Agrees (scanner cs) (scanner (squeezed cs))

theorem agrees_withSqueezed {α : Type} (r : Scan α) : Agrees r (withSqueezed r) := by
  rcases r with e | ⟨a, rest⟩
  · exact .error e e
  · exact .ok a rest

theorem behindWord_squeezed {word : List Char} (h : ∀ c ∈ word, isLineEnd c = false)
    (cs : List Char) : behindWord word (squeezed cs) = (behindWord word cs).map squeezed := by
  induction word generalizing cs with
  | nil => rfl
  | cons w word ih =>
    rw [List.forall_mem_cons] at h
    obtain rfl | ⟨c, rest, -, rfl, hsq⟩ | ⟨c, rest, tail, hc, rfl, hsq⟩ := squeezed_cases cs
    · rfl
    · rw [hsq, behindWord, behindWord]
      split
      · exact ih h.2 rest
      · rfl
    · have hne : ∀ d, isLineEnd d = true → w ≠ d := by
        rintro d hd rfl
        exact absurd hd (by rw [h.1]; decide)
      rw [hsq, behindWord, behindWord, if_neg (hne _ (by decide)),
        if_neg (hne c ((isLineEnd_iff c).2 hc))]
      rfl

theorem findWord_squeezed {ws : List (List Char × Json)}
    (h : ∀ w ∈ ws, ∀ c ∈ w.1, isLineEnd c = false) (cs : List Char) :
    (ws.findSome? fun w => (behindWord w.1 (squeezed cs)).map fun rest => (w.2, rest))
      = (ws.findSome? fun w => (behindWord w.1 cs).map fun rest => (w.2, rest)).map
        fun p => (p.1, squeezed p.2) := by
  induction ws with
  | nil => rfl
  | cons w ws ih =>
    rw [List.forall_mem_cons] at h
    rw [List.findSome?_cons, List.findSome?_cons, behindWord_squeezed h.1]
    cases behindWord w.1 cs with
    | none => exact ih h.2
    | some rest => rfl

theorem looksPast_scanAtom : LooksPast scanAtom := by
  intro cs
  have hall : (words.all fun w => w.1.all fun c => !isLineEnd c) = true := by decide
  have hplain : ∀ w ∈ words, ∀ c ∈ w.1, isLineEnd c = false := by simpa using hall
  rw [scanAtom, scanAtom, findWord_squeezed hplain, scanNumber_squeezed]
  cases words.findSome? fun w => (behindWord w.1 cs).map fun rest => (w.2, rest) with
  | some found => exact .ok found.1 found.2
  | none =>
    cases scanNumber cs with
    | some scanned => exact agrees_withSqueezed scanned
    | none => exact .error _ _

theorem AreShown.plain {cs : List Char} (h : AreShown cs) : ∀ c ∈ cs, isLineEnd c = false := by
  intro c hc
  rw [Bool.eq_false_iff]
  intro hend
  have hshown := h c hc
  obtain rfl | rfl := (isLineEnd_iff c).1 hend
  · exact absurd hshown (by decide)
  · exact absurd hshown (by decide)

/-- A text has no line end in front of its closing mark. -/
theorem looksPast_readText : LooksPast readText := by
  intro cs
  rcases h : readText cs with e | ⟨s, rest⟩
  · rcases h' : readText (squeezed cs) with e' | ⟨s, left⟩
    · exact .error e e'
    · obtain ⟨body, hcs, hshown, hread⟩ := readText_append h'
      have hmark : AreShown (body ++ ['"']) := hshown.append (.cons (by decide) areShown_nil)
      have hfront : squeezed cs = (body ++ ['"']) ++ left := by simpa using hcs
      obtain ⟨rest, rfl, -⟩ := exists_of_squeezed_eq hmark.plain hfront
      rw [List.append_assoc, List.singleton_append, hread] at h
      cases h
  · obtain ⟨body, rfl, hshown, hread⟩ := readText_append h
    rw [squeezed_append hshown.plain, squeezed, squeezedFrom_of_plain false (by decide), hread]
    exact .ok s rest

/-! ## Values

The scanners of values are made of the others in three ways: one goes on behind the
result of another one, behind blanks, or according to the next character. -/

section

variable {α β : Type}

/-- Goes on behind what a scanner returns. -/
def andThen (first : List Char → Scan α) (next : α → List Char → Scan β) (cs : List Char) :
    Scan β :=
  match first cs with
  | .error e => .error e
  | .ok (a, rest) => next a rest

/-- Goes on behind a mark, where it stands, and in another way where it does not. -/
def atMark (mark : Char) (behind other : List Char → Scan α) (cs : List Char) : Scan α :=
  if cs.head? = some mark then behind cs.tail else other cs

theorem atMark_cons (mark : Char) (behind other : List Char → Scan α) (left : List Char) :
    atMark mark behind other (mark :: left) = behind left := by simp [atMark]

theorem atMark_of_ne {mark : Char} {cs : List Char} (behind other : List Char → Scan α)
    (h : ∀ left, cs ≠ mark :: left) : atMark mark behind other cs = other cs := by
  cases cs with
  | nil => rfl
  | cons c left =>
    rw [atMark, if_neg]
    simpa using fun heq => h left (by rw [heq])

theorem looksPast_ok (a : α) : LooksPast fun cs => .ok (a, cs) := fun cs => .ok a cs

theorem looksPast_complain (what : Complaint) : LooksPast (complain what : List Char → Scan α) :=
  fun _ => .error _ _

theorem LooksPast.skipGap {scanner : List Char → Scan α} (h : LooksPast scanner) :
    LooksPast fun cs => scanner (skipGap cs) := by
  intro cs
  dsimp only
  rw [skipGap_squeezed]
  exact h _

theorem LooksPast.andThen {first : List Char → Scan α} {next : α → List Char → Scan β}
    (hfirst : LooksPast first) (hnext : ∀ a, LooksPast (next a)) :
    LooksPast (andThen first next) := by
  intro cs
  have h := hfirst cs
  rw [Json.andThen, Json.andThen]
  generalize first cs = r, first (squeezed cs) = r' at h ⊢
  cases h with
  | error e e' => exact .error e e'
  | ok a rest => exact hnext a rest

theorem LooksPast.atMark {mark : Char} {behind other : List Char → Scan α}
    (hmark : isLineEnd mark = false) (hbehind : LooksPast behind) (hother : LooksPast other) :
    LooksPast (atMark mark behind other) := by
  intro cs
  have h := hother cs
  obtain rfl | ⟨c, rest, -, rfl, hsq⟩ | ⟨c, rest, tail, hc, rfl, hsq⟩ := squeezed_cases cs
  · exact h
  · rw [hsq] at h ⊢
    rw [Json.atMark, Json.atMark, List.head?_cons, List.head?_cons]
    split
    · exact hbehind rest
    · exact h
  · have hne : ∀ d, isLineEnd d = true → ∀ ds left, d :: ds ≠ mark :: left := by
      intro d hd ds left heq
      rw [(List.cons.inj heq).1, hmark] at hd
      cases hd
    rw [atMark_of_ne _ _ (hne c ((isLineEnd_iff c).2 hc) rest)]
    rw [hsq] at h ⊢
    rw [atMark_of_ne _ _ (hne _ (by decide) tail)]
    exact h

end

/-- Behind a part of an array or an object: its end, or further parts behind a comma. -/
def behindPart (close : Char) (v : Json) (further : List Char → Scan Json) : List Char → Scan Json :=
  atMark close (fun left => .ok (v, left))
    (atMark ',' (fun left => further (skipGap left)) (complain .comma))

theorem LooksPast.behindPart {close : Char} (hclose : isLineEnd close = false) (v : Json)
    {further : List Char → Scan Json} (h : LooksPast further) :
    LooksPast (behindPart close v further) :=
  .atMark hclose (looksPast_ok v) (.atMark (by decide) h.skipGap (looksPast_complain _))

theorem behindPart_other {close : Char} {cs : List Char} (v : Json)
    (further : List Char → Scan Json) (hclose : ∀ left, cs ≠ close :: left)
    (hcomma : ∀ left, cs ≠ ',' :: left) : behindPart close v further cs = complain .comma cs := by
  rw [behindPart, atMark_of_ne _ _ hclose, atMark_of_ne _ _ hcomma]

theorem scanItems_succ (fuel : Nat) (done : List Json) :
    scanItems (fuel + 1) done = andThen (scanValue fuel) fun v cs =>
      behindPart ']' (.array (v :: done).reverse) (scanItems fuel (v :: done)) (skipGap cs) := by
  funext cs
  rw [scanItems, andThen]
  rcases scanValue fuel cs with e | ⟨v, rest⟩
  · rfl
  dsimp only
  split
  · rename_i hskip
    rw [hskip]
    rfl
  · rename_i hskip
    rw [hskip]
    rfl
  · rw [behindPart_other _ _ ‹_› ‹_›]

/-- What is done behind the name of a member: its value follows behind a colon. -/
def behindName (fuel : Nat) (done : List (String × Json)) (name : String) : List Char → Scan Json :=
  atMark ':'
    (fun cs => andThen (scanValue fuel)
      (fun v cs => behindPart '\x7d' (.object (put name v done)) (scanMembers fuel (put name v done))
        (skipGap cs))
      (skipGap cs))
    (complain .colon)

theorem scanMembers_succ (fuel : Nat) (done : List (String × Json)) :
    scanMembers (fuel + 1) done = atMark '"'
      (andThen readText fun name cs => behindName fuel done name (skipGap cs)) (complain .name) := by
  funext cs
  unfold scanMembers
  split
  · rename_i rest
    rw [atMark_cons, andThen]
    rcases readText rest with e | ⟨name, behind⟩
    · rfl
    dsimp only
    split
    · rename_i left hskip
      rw [hskip, behindName, atMark_cons, andThen]
      rcases scanValue fuel (skipGap left) with e | ⟨v, rest'⟩
      · rfl
      dsimp only
      split
      · rename_i hskip'
        rw [hskip']
        rfl
      · rename_i hskip'
        rw [hskip']
        rfl
      · rw [behindPart_other _ _ ‹_› ‹_›]
    · rw [behindName, atMark_of_ne _ _ ‹_›]
  · rw [atMark_of_ne _ _ ‹_›]

theorem scanValue_succ (fuel : Nat) :
    scanValue (fuel + 1) = atMark '"' (andThen readText fun s cs => .ok (.text s, cs))
      (atMark '['
        (fun cs => atMark ']' (fun left => .ok (.array [], left)) (scanItems fuel []) (skipGap cs))
        (atMark '\x7b'
          (fun cs => atMark '\x7d' (fun left => .ok (.object [], left)) (scanMembers fuel [])
            (skipGap cs))
          scanAtom)) := by
  funext cs
  unfold scanValue
  split
  · rename_i rest
    rw [atMark_cons, andThen]
    rcases readText rest with e | ⟨s, left⟩ <;> rfl
  · rename_i rest
    rw [atMark_of_ne _ _ (by simp), atMark_cons]
    split
    · rename_i hskip
      rw [hskip, atMark_cons]
    · rw [atMark_of_ne _ _ ‹_›]
  · rename_i rest
    rw [atMark_of_ne _ _ (by simp), atMark_of_ne _ _ (by simp), atMark_cons]
    split
    · rename_i hskip
      rw [hskip, atMark_cons]
    · rw [atMark_of_ne _ _ ‹_›]
  · rw [atMark_of_ne _ _ ‹_›, atMark_of_ne _ _ ‹_›, atMark_of_ne _ _ ‹_›]

/-- The scanners of values look past line ends. -/
theorem looksPast_scan_values (fuel : Nat) :
    LooksPast (scanValue fuel) ∧ (∀ done, LooksPast (scanItems fuel done))
      ∧ ∀ done, LooksPast (scanMembers fuel done) := by
  induction fuel with
  | zero =>
    refine ⟨fun cs => ?_, fun done cs => ?_, fun done cs => ?_⟩
    · rw [scanValue, scanValue]
      exact .error _ _
    · rw [scanItems, scanItems]
      exact .error _ _
    · rw [scanMembers, scanMembers]
      exact .error _ _
  | succ fuel ih =>
    obtain ⟨hvalue, hitems, hmembers⟩ := ih
    have hitem : ∀ v done, LooksPast (behindPart ']' v (scanItems fuel done)) := fun v done =>
      .behindPart (by decide) v (hitems done)
    have hmember : ∀ v done, LooksPast (behindPart '\x7d' v (scanMembers fuel done)) :=
      fun v done => .behindPart (by decide) v (hmembers done)
    refine ⟨?_, fun done => ?_, fun done => ?_⟩
    · have hobject : LooksPast
          (atMark '\x7d' (fun left => .ok (.object [], left)) (scanMembers fuel [])) :=
        .atMark (by decide) (looksPast_ok _) (hmembers [])
      have harray : LooksPast (atMark ']' (fun left => .ok (.array [], left)) (scanItems fuel [])) :=
        .atMark (by decide) (looksPast_ok _) (hitems [])
      rw [scanValue_succ]
      exact .atMark (by decide) (looksPast_readText.andThen fun s => looksPast_ok _)
        (.atMark (by decide) harray.skipGap (.atMark (by decide) hobject.skipGap looksPast_scanAtom))
    · rw [scanItems_succ]
      exact hvalue.andThen fun v => (hitem _ _).skipGap
    · have hname : ∀ name, LooksPast (behindName fuel done name) := fun name =>
        .atMark (by decide) (hvalue.andThen fun v => (hmember _ _).skipGap).skipGap
          (looksPast_complain _)
      rw [scanMembers_succ]
      exact .atMark (by decide) (looksPast_readText.andThen fun name => (hname name).skipGap)
        (looksPast_complain _)

/-! ## Whole texts -/

theorem length_squeezedFrom_le (inside : Bool) (cs : List Char) :
    (squeezedFrom inside cs).length ≤ cs.length := by
  induction cs generalizing inside with
  | nil => exact Nat.le_refl 0
  | cons c cs ih =>
    have hrest := ih true
    have hrest' := ih false
    rw [squeezedFrom]
    split
    · split
      · rw [List.length_cons]
        omega
      · simpa using hrest
    · simpa using hrest'

/-- A text spells a value if it begins with no mark of the byte order, and nothing but
blanks stands around the value. -/
theorem scan_eq_ok_iff (cs : List Char) (v : Json) :
    scan cs = .ok v ↔ cs.head? ≠ some '\uFEFF'
      ∧ ∃ rest, scanValue (fuelFor cs) (skipGap cs) = .ok (v, rest) ∧ skipGap rest = [] := by
  unfold scan
  split
  · simp [complain]
  · rename_i hmark
    have hhead : cs.head? ≠ some '\uFEFF' := by
      intro h
      obtain ⟨rest, rfl⟩ := List.head?_eq_some_iff.1 h
      exact hmark rest rfl
    rcases scanValue (fuelFor cs) (skipGap cs) with e | ⟨u, rest⟩
    · simp
    · dsimp only
      split
      · rename_i hend
        simp [hhead, hend]
      · rename_i hmore
        have hmore : skipGap rest ≠ [] := hmore
        simp [complain, hmore]

theorem head?_squeezed_iff {c : Char} (hc : isLineEnd c = false) (cs : List Char) :
    (squeezed cs).head? = some c ↔ cs.head? = some c := by
  obtain rfl | ⟨d, rest, -, rfl, hsq⟩ | ⟨d, rest, tail, hd, rfl, hsq⟩ := squeezed_cases cs
  · rfl
  · rw [hsq, List.head?_cons, List.head?_cons]
  · rw [hsq, List.head?_cons, List.head?_cons, Option.some.injEq, Option.some.injEq]
    constructor
    · rintro rfl
      cases hc
    · rintro rfl
      rw [(isLineEnd_iff d).2 hd] at hc
      cases hc

/-- A text spells the value that the squeezed text spells. -/
theorem scan_squeezed_iff (cs : List Char) (v : Json) :
    scan (squeezed cs) = .ok v ↔ scan cs = .ok v := by
  have hlength := length_squeezedFrom_le false cs
  have hgap := length_skipGap_le (squeezed cs)
  have hfuel : scanValue (fuelFor (squeezed cs)) (skipGap (squeezed cs))
      = scanValue (fuelFor cs) (skipGap (squeezed cs)) :=
    scanValue_of_fuel (by rw [fuelFor]; omega) (by rw [fuelFor, squeezed] at *; omega)
  have hvalue := (looksPast_scan_values (fuelFor cs)).1.skipGap cs
  rw [scan_eq_ok_iff, scan_eq_ok_iff, hfuel, Ne, head?_squeezed_iff (by decide)]
  refine and_congr_right fun _ => ?_
  dsimp only at hvalue
  generalize scanValue (fuelFor cs) (skipGap cs) = r,
    scanValue (fuelFor cs) (skipGap (squeezed cs)) = r' at hvalue ⊢
  cases hvalue with
  | error e e' => simp
  | ok u rest =>
    have hend : skipGap (squeezed rest) = [] ↔ skipGap rest = [] := by
      rw [skipGap_squeezed, squeezed_eq_nil_iff]
    simp [hend]

/-- With a line feed for each line end, a text spells the same value as without. -/
theorem read_unified_iff (cs : List Char) (v : Json) :
    read (unified cs) = .ok v ↔ read cs = .ok v := by
  have hread : ∀ ds, read ds = .ok v ↔ scan ds = .ok v := by
    intro ds
    unfold read
    split
    · rename_i u hu
      rw [hu]
      simp
    · rename_i r hr
      rw [hr]
      simp
  rw [hread, hread, ← scan_squeezed_iff, squeezed_unified, scan_squeezed_iff]

end Json

end FieldCheck
