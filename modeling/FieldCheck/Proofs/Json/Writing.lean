/-
FieldCheck.Proofs.Json.Writing — what is written is read back.

Reading undoes writing for every value that is proper and can be written
(`read_write`), and the value is the same one, with `nan` for `nan`. Scanners are
greedy, so each of them is run on what was written with a rest behind it, and the
rest has to be one that ends the token. Behind a value of an array or an object
that is a comma or a closing bracket (`EndsValue`).

The induction is on the parts of the value, with the fuel as a bound: as much as
there are characters is enough, because each item takes the fuel of one step and
at least one character. Names have to differ, since the reader puts the second
value of a name in the place of the first.

What is written is one line of printable ASCII (`isPrintableAscii_writeChars`).

Texts are sequences of characters, and the law needs that: two halves of a surrogate pair
that stood in a text each by itself would be written as the one character is
(`unicodeEscape_halves`).
-/
import FieldCheck.Proofs.Json.Numbers
import FieldCheck.Proofs.Json.Parts

namespace FieldCheck.Json

open FieldCheck.Numeral (StopsAt stopsAt_cons)

/-! ## Codes of characters -/

/-- Four hexadecimal digits of a sixteen-bit code. -/
theorem hexPadded_four {n : Nat} (h : n < 0x10000) :
    ∃ a b c d, Text.hexPadded 4 n = [a, b, c, d] ∧ hexQuad a b c d = some n := by
  refine ⟨_, _, _, _, rfl, ?_⟩
  simp only [hexQuad, Text.hexValue_hexDigit, Option.bind_eq_bind, Option.bind_some, Option.pure_def,
    Option.some.injEq]
  omega

theorem scanCode_of_single {n : Nat} {e : Char} (h : n < 0x10000) (hhigh : isHigh n = false)
    (rest : List Char) :
    scanCode (Text.hexPadded 4 n ++ e :: rest) = .ok (codeChar n, e :: rest) := by
  obtain ⟨a, b, c, d, hdigits, hquad⟩ := hexPadded_four h
  rw [hdigits]
  simp [scanCode, hquad, hhigh]

theorem scanCode_of_pair {high low : Nat} {e : Char} (hhigh : isHigh high = true)
    (hlow : isLow low = true) (rest : List Char) :
    scanCode (Text.hexPadded 4 high ++ (unicodeEscape low ++ e :: rest))
      = .ok (pairChar high low, e :: rest) := by
  have hhigh' : high < 0x10000 := by
    simp only [isHigh, Bool.and_eq_true, decide_eq_true_iff] at hhigh
    omega
  have hlow' : low < 0x10000 := by
    simp only [isLow, Bool.and_eq_true, decide_eq_true_iff] at hlow
    omega
  obtain ⟨a, b, c, d, hdigits, hquad⟩ := hexPadded_four hhigh'
  obtain ⟨a', b', c', d', hdigits', hquad'⟩ := hexPadded_four hlow'
  rw [unicodeEscape, hdigits, hdigits']
  simp [scanCode, hquad, hquad', hhigh, hlow]

/-- A character of the first plane is the one of its code. -/
theorem codeChar_toNat (c : Char) : isHigh c.toNat = false ∧ codeChar c.toNat = c := by
  have hvalid : c.toNat < 0xD800 ∨ (0xDFFF < c.toNat ∧ c.toNat < 0x110000) := c.valid
  have hhigh : isHigh c.toNat = false := by
    simp only [isHigh, Bool.and_eq_false_iff, decide_eq_false_iff_not]
    omega
  have hlow : isLow c.toNat = false := by
    simp only [isLow, Bool.and_eq_false_iff, decide_eq_false_iff_not]
    omega
  refine ⟨hhigh, ?_⟩
  rw [codeChar, hhigh, hlow, Bool.or_self, if_neg (by decide), Char.ofNat_toNat]

/-- A character above the first plane is the one of its pair. -/
theorem pairChar_toNat {c : Char} (h : ¬ c.toNat < 0x10000) :
    isHigh (0xD800 + (c.toNat - 0x10000) / 0x400) = true
      ∧ isLow (0xDC00 + (c.toNat - 0x10000) % 0x400) = true
      ∧ pairChar (0xD800 + (c.toNat - 0x10000) / 0x400) (0xDC00 + (c.toNat - 0x10000) % 0x400)
        = c := by
  have hvalid : c.toNat < 0xD800 ∨ (0xDFFF < c.toNat ∧ c.toNat < 0x110000) := c.valid
  refine ⟨?_, ?_, ?_⟩
  · simp only [isHigh, Bool.and_eq_true, decide_eq_true_iff]
    omega
  · simp only [isLow, Bool.and_eq_true, decide_eq_true_iff]
    omega
  · have hcode : 0x10000 + (0xD800 + (c.toNat - 0x10000) / 0x400 - 0xD800) * 0x400
        + (0xDC00 + (c.toNat - 0x10000) % 0x400 - 0xDC00) = c.toNat := by omega
    rw [pairChar, hcode, Char.ofNat_toNat]

/-- A letter behind a backslash. -/
theorem scanText_letter {start fuel : Nat} {done : List Char} {l d : Char}
    (h : unescape l = some d) (hu : l ≠ 'u') (rest : List Char) :
    scanText start (fuel + 1) done ('\\' :: l :: rest) = scanText start fuel (d :: done) rest := by
  rw [scanText, h]
  exact hu

/-- A code behind a backslash. -/
theorem scanText_code {start fuel : Nat} {done cs rest : List Char} {c : Char}
    (h : scanCode cs = .ok (c, rest)) :
    scanText start (fuel + 1) done ('\\' :: 'u' :: cs) = scanText start fuel (c :: done) rest := by
  rw [scanText]
  simp only [h]

/-- A character that is written as it is. -/
theorem scanText_plain {start fuel : Nat} {done : List Char} {c : Char} (hmark : c ≠ '"')
    (hescape : c ≠ '\\') (hcontrol : 0x20 ≤ c.toNat) (rest : List Char) :
    scanText start (fuel + 1) done (c :: rest) = scanText start fuel (c :: done) rest := by
  rw [scanText, if_neg (by omega)]
  · exact hmark
  · exact hescape

/-- One written character, with something behind it, is read in one step. -/
theorem scanText_escapeChar (start fuel : Nat) (done : List Char) (c e : Char) (rest : List Char) :
    scanText start (fuel + 1) done (escapeChar c ++ e :: rest)
      = scanText start fuel (c :: done) (e :: rest) := by
  have hletter : ∀ {l : Char}, unescape l = some c → l ≠ 'u' →
      scanText start (fuel + 1) done (['\\', l] ++ e :: rest)
        = scanText start fuel (c :: done) (e :: rest) := fun h hu => scanText_letter h hu _
  unfold escapeChar
  split
  · rename_i h
    exact hletter (by rw [h]; rfl) (by decide)
  split
  · rename_i h
    exact hletter (by rw [h]; rfl) (by decide)
  split
  · rename_i h
    exact hletter (by rw [h]; rfl) (by decide)
  split
  · rename_i h
    exact hletter (by rw [h]; rfl) (by decide)
  split
  · rename_i h
    exact hletter (by rw [h]; rfl) (by decide)
  split
  · rename_i h
    exact hletter (by rw [h]; rfl) (by decide)
  split
  · rename_i h
    exact hletter (by rw [h]; rfl) (by decide)
  rename_i hmark hescape _ _ _ _ _
  split
  · rename_i h
    exact scanText_plain hmark hescape h.1 _
  split
  · rename_i h
    obtain ⟨hhigh, hchar⟩ := codeChar_toNat c
    have hcode := scanCode_of_single (e := e) h hhigh rest
    rw [hchar] at hcode
    exact scanText_code hcode
  · rename_i h
    obtain ⟨hhigh, hlow, hchar⟩ := pairChar_toNat h
    have hcode := scanCode_of_pair (e := e) hhigh hlow rest
    rw [hchar] at hcode
    rw [List.append_assoc]
    exact scanText_code hcode

theorem scanText_flatMap (start : Nat) (rest : List Char) {fuel : Nat} {done cs : List Char}
    (hfuel : cs.length < fuel) :
    scanText start fuel done (cs.flatMap escapeChar ++ '"' :: rest)
      = .ok (String.ofList (done.reverse ++ cs), rest) := by
  obtain ⟨fuel, rfl⟩ : ∃ n, fuel = n + 1 := ⟨fuel - 1, by omega⟩
  induction cs generalizing fuel done with
  | nil => simp [scanText]
  | cons c cs ih =>
    rw [List.length_cons] at hfuel
    obtain ⟨fuel, rfl⟩ : ∃ n, fuel = n + 1 := ⟨fuel - 1, by omega⟩
    -- Something stands behind the character, be it the closing mark.
    obtain ⟨e, behind, hbehind⟩ : ∃ e behind, cs.flatMap escapeChar ++ '"' :: rest = e :: behind :=
      List.exists_cons_of_ne_nil (by simp)
    rw [List.flatMap_cons, List.append_assoc, hbehind, scanText_escapeChar, ← hbehind,
      ih _ (by omega)]
    simp

theorem escapeChar_ne_nil (c : Char) : escapeChar c ≠ [] := by
  unfold escapeChar unicodeEscape
  repeat' split
  all_goals simp

theorem length_le_length_flatMap (cs : List Char) : cs.length ≤ (cs.flatMap escapeChar).length := by
  induction cs with
  | nil => simp
  | cons c cs ih =>
    have hpos : 0 < (escapeChar c).length := List.length_pos_iff.2 (escapeChar_ne_nil c)
    rw [List.flatMap_cons, List.length_append, List.length_cons]
    omega

/-- A text is read back up to its closing mark. -/
theorem readText_writeText (s : String) (rest : List Char) :
    ∃ cs, writeText s ++ rest = '"' :: cs ∧ readText cs = .ok (s, rest) := by
  refine ⟨s.toList.flatMap escapeChar ++ '"' :: rest, by simp [writeText], ?_⟩
  have hlength := length_le_length_flatMap s.toList
  rw [readText, scanText_flatMap]
  · simp
  · rw [List.length_append, List.length_cons]
    omega

/-! ## Atoms -/

/-- A value ends here: a comma or a closing bracket follows, or nothing. -/
def EndsValue (rest : List Char) : Prop :=
  ∀ c ∈ rest.head?, c = ',' ∨ c = ']' ∨ c = '\x7d'

theorem EndsValue.endsNumber {rest : List Char} (h : EndsValue rest) : EndsNumber rest := by
  intro c hc
  rcases h c hc with rfl | rfl | rfl <;> rfl

theorem skipGap_of_endsValue {rest : List Char} (h : EndsValue rest) : skipGap rest = rest := by
  cases rest with
  | nil => rfl
  | cons c rest =>
    have hc : isGap c = false := by
      rcases h c rfl with rfl | rfl | rfl <;> rfl
    rw [skipGap, List.dropWhile_cons_of_neg (by simp [hc])]

/-- A digit, or a minus sign and a digit, stands in front. -/
def StartsNumber (cs : List Char) : Prop :=
  ∃ c tail, c.isDigit = true ∧ (cs = c :: tail ∨ cs = '-' :: c :: tail)

theorem StartsNumber.append {cs : List Char} (h : StartsNumber cs) (rest : List Char) :
    StartsNumber (cs ++ rest) := by
  obtain ⟨c, tail, hc, rfl | rfl⟩ := h
  · exact ⟨c, tail ++ rest, hc, .inl rfl⟩
  · exact ⟨c, tail ++ rest, hc, .inr rfl⟩

theorem startsNumber_writeFloat (negative : Bool) {code : Nat} (h : code < Double.codeLimit) :
    StartsNumber (writeFloat (.finite negative code h)) := by
  obtain ⟨c, tail, hcons, hc⟩ := (writes_render Double.layout (Double.shortest code)).exists_cons
  have hwrite : writeFloat (.finite negative code h) = Double.signed negative (c :: tail) := by
    rw [← hcons]
    rfl
  refine ⟨c, tail, hc, ?_⟩
  rw [hwrite]
  cases negative
  · exact .inl rfl
  · exact .inr rfl

theorem startsNumber_chars (n : Int) : StartsNumber (Decimal.chars n) := by
  obtain ⟨c, tail, hcons⟩ := List.exists_cons_of_ne_nil (Decimal.digits_ne_nil n.natAbs)
  have hmem : c ∈ Decimal.digits n.natAbs := by
    rw [hcons]
    exact List.mem_cons_self
  refine ⟨c, tail, Decimal.isDigit_of_mem_digits hmem, ?_⟩
  unfold Decimal.chars
  split
  · exact .inr (by rw [hcons])
  · exact .inl hcons

/-- No word starts like a number. -/
theorem scanAtom_of_number {cs : List Char} {r : Scan Json} (h : scanNumber cs = some r)
    (hstart : StartsNumber cs) : scanAtom cs = r := by
  have hnone : words.findSome? (fun w => (behindWord w.1 cs).map fun rest => (w.2, rest))
      = none := by
    obtain ⟨c, tail, hc, hcs⟩ := hstart
    have hletter : ∀ d ∈ ['n', 't', 'f', 'N', 'I', '-'], d ≠ c := by
      rintro d hd rfl
      simp only [List.mem_cons, List.not_mem_nil, or_false] at hd
      rcases hd with rfl | rfl | rfl | rfl | rfl | rfl <;> cases hc
    have hwords : ∀ w ∈ words, behindWord w.1 cs = none := by
      intro w hw
      simp only [words, List.mem_cons, List.not_mem_nil, or_false] at hw
      rcases hcs with rfl | rfl <;> rcases hw with rfl | rfl | rfl | rfl | rfl | rfl <;>
        simp [behindWord, hletter]
    rw [List.findSome?_eq_none_iff]
    intro w hw
    rw [hwords w hw]
    rfl
  rw [scanAtom, hnone, h]

theorem scanAtom_word {word : List Char} {v : Json} (h : (word, v) ∈ words) (rest : List Char) :
    scanAtom (word ++ rest) = .ok (v, rest) := by
  simp only [words, List.mem_cons, List.not_mem_nil, or_false, Prod.mk.injEq] at h
  rcases h with ⟨rfl, rfl⟩ | ⟨rfl, rfl⟩ | ⟨rfl, rfl⟩ | ⟨rfl, rfl⟩ | ⟨rfl, rfl⟩ | ⟨rfl, rfl⟩ <;> rfl

/-- A floating-point number is read back, from a word or a number. -/
theorem scanAtom_writeFloat (x : Double) {rest : List Char} (h : EndsValue rest) :
    scanAtom (writeFloat x ++ rest) = .ok (.float x, rest) := by
  cases x with
  | nan => exact scanAtom_word (by simp [words, writeFloat]) rest
  | infinite negative =>
    cases negative <;> exact scanAtom_word (by simp [words, writeFloat, Double.signed]) rest
  | finite negative code hcode =>
    exact scanAtom_of_number (scanNumber_chars_finite negative hcode h.endsNumber)
      ((startsNumber_writeFloat negative hcode).append rest)

theorem scanAtom_chars {n : Int} (hn : Decimal.isWritable n = true) {rest : List Char}
    (h : EndsValue rest) : scanAtom (Decimal.chars n ++ rest) = .ok (.int n, rest) :=
  scanAtom_of_number (scanNumber_chars hn h.endsNumber) ((startsNumber_chars n).append rest)

/-! ## How a value starts -/

/-- A character that a value may start with: no blank, no closing bracket and no
byte order mark. -/
def isFirst (c : Char) : Bool := !isGap c && !([']', '\x7d', '\uFEFF'].contains c)

/-- A character that a word or a number may start with. -/
def isAtomFirst (c : Char) : Bool := isFirst c && !(['"', '[', '\x7b'].contains c)

/-- A word or a number stands in front. -/
def StartsAtom (cs : List Char) : Prop := ∃ c tail, cs = c :: tail ∧ isAtomFirst c = true

/-- A value stands in front. -/
def StartsValue (cs : List Char) : Prop := ∃ c tail, cs = c :: tail ∧ isFirst c = true

theorem StartsAtom.startsValue {cs : List Char} (h : StartsAtom cs) : StartsValue cs := by
  obtain ⟨c, tail, rfl, hc⟩ := h
  rw [isAtomFirst, Bool.and_eq_true] at hc
  exact ⟨c, tail, rfl, hc.1⟩

theorem StartsAtom.append {cs : List Char} (h : StartsAtom cs) (rest : List Char) :
    StartsAtom (cs ++ rest) := by
  obtain ⟨c, tail, rfl, hc⟩ := h
  exact ⟨c, tail ++ rest, rfl, hc⟩

theorem StartsValue.append {cs : List Char} (h : StartsValue cs) (rest : List Char) :
    StartsValue (cs ++ rest) := by
  obtain ⟨c, tail, rfl, hc⟩ := h
  exact ⟨c, tail ++ rest, rfl, hc⟩

theorem StartsValue.skipGap_eq {cs : List Char} (h : StartsValue cs) : skipGap cs = cs := by
  obtain ⟨c, tail, rfl, hc⟩ := h
  rw [isFirst, Bool.and_eq_true, Bool.not_eq_true'] at hc
  rw [skipGap, List.dropWhile_cons_of_neg (by simp [hc.1])]

theorem StartsValue.skipGap_blank {cs : List Char} (h : StartsValue cs) :
    skipGap (' ' :: cs) = cs := h.skipGap_eq

theorem isAtomFirst_of_isDigit {c : Char} (h : c.isDigit = true) : isAtomFirst c = true := by
  have hne : ∀ d ∈ [' ', '\t', '\n', '\r', '"', '[', ']', '\x7b', '\x7d', '\uFEFF'], c ≠ d := by
    rintro d hd rfl
    simp only [List.mem_cons, List.not_mem_nil, or_false] at hd
    rcases hd with rfl | rfl | rfl | rfl | rfl | rfl | rfl | rfl | rfl | rfl <;> cases h
  simp [isAtomFirst, isFirst, isGap, hne]

theorem StartsNumber.startsAtom {cs : List Char} (h : StartsNumber cs) : StartsAtom cs := by
  obtain ⟨c, tail, hc, rfl | rfl⟩ := h
  · exact ⟨c, tail, rfl, isAtomFirst_of_isDigit hc⟩
  · exact ⟨'-', _, rfl, by decide⟩

theorem startsAtom_writeFloat (x : Double) : StartsAtom (writeFloat x) := by
  cases x with
  | nan => exact ⟨'N', _, rfl, by decide⟩
  | infinite negative =>
    cases negative
    · exact ⟨'I', _, rfl, by decide⟩
    · exact ⟨'-', _, rfl, by decide⟩
  | finite negative code h => exact (startsNumber_writeFloat negative h).startsAtom

theorem startsValue_writeChars (j : Json) : StartsValue (writeChars j) := by
  cases j with
  | null => exact ⟨'n', _, rfl, by decide⟩
  | bool b =>
    cases b
    · exact ⟨'f', _, rfl, by decide⟩
    · exact ⟨'t', _, rfl, by decide⟩
  | int n => exact (startsNumber_chars n).startsAtom.startsValue
  | float x => exact (startsAtom_writeFloat x).startsValue
  | text s => exact ⟨'"', _, rfl, by decide⟩
  | array xs => exact ⟨'[', _, rfl, by decide⟩
  | object ms => exact ⟨'\x7b', _, rfl, by decide⟩

/-! ## Values -/

/-- A value that is written is read back, given as much fuel as it has characters. -/
def IsReadBack (j : Json) : Prop :=
  ∀ (fuel : Nat) (rest : List Char), (writeChars j).length ≤ fuel → EndsValue rest →
    scanValue fuel (writeChars j ++ rest) = .ok (j, rest)

theorem length_writeChars_pos (j : Json) : 0 < (writeChars j).length := by
  obtain ⟨c, tail, hcons, -⟩ := startsValue_writeChars j
  simp [hcons]

theorem scanValue_of_startsAtom {cs : List Char} (h : StartsAtom cs) (fuel : Nat) :
    scanValue (fuel + 1) cs = scanAtom cs := by
  obtain ⟨c, tail, rfl, hc⟩ := h
  simp only [isAtomFirst, Bool.and_eq_true, Bool.not_eq_true', List.contains_eq_mem, List.mem_cons,
    List.not_mem_nil, or_false, decide_eq_false_iff_not, not_or] at hc
  obtain ⟨-, hmark, harray, hobject⟩ := hc
  rw [scanValue]
  · rintro rest ⟨⟩
    exact hmark rfl
  · rintro rest ⟨⟩
    exact harray rfl
  · rintro rest ⟨⟩
    exact hobject rfl

theorem isReadBack_of_scanAtom {j : Json} (hstart : StartsAtom (writeChars j))
    (h : ∀ rest, EndsValue rest → scanAtom (writeChars j ++ rest) = .ok (j, rest)) :
    IsReadBack j := by
  intro fuel rest hfuel hrest
  obtain ⟨fuel, rfl⟩ : ∃ n, fuel = n + 1 :=
    ⟨fuel - 1, by have := length_writeChars_pos j; omega⟩
  rw [scanValue_of_startsAtom (hstart.append rest), h rest hrest]

theorem isReadBack_text (s : String) : IsReadBack (.text s) := by
  intro fuel rest hfuel _
  obtain ⟨fuel, rfl⟩ : ∃ n, fuel = n + 1 :=
    ⟨fuel - 1, by have := length_writeChars_pos (.text s); omega⟩
  obtain ⟨cs, hcs, hread⟩ := readText_writeText s rest
  rw [writeChars, hcs, scanValue, hread]

/-! ## Arrays -/

theorem separated_cons_cons (x y : List Char) (zs : List (List Char)) :
    separated (x :: y :: zs) = x ++ ',' :: ' ' :: separated (y :: zs) := rfl

theorem endsValue_comma (rest : List Char) : EndsValue (',' :: rest) := by simp [EndsValue]

theorem endsValue_bracket (rest : List Char) : EndsValue (']' :: rest) := by simp [EndsValue]

theorem endsValue_brace (rest : List Char) : EndsValue ('\x7d' :: rest) := by simp [EndsValue]

theorem startsValue_separated_items (x : Json) (xs : List Json) :
    StartsValue (separated (writeItems (x :: xs))) := by
  cases xs with
  | nil => exact startsValue_writeChars x
  | cons y ys => exact (startsValue_writeChars x).append _

/-- The items of an array are read back behind those that were read before. -/
theorem scanItems_separated {x : Json} {xs : List Json} (h : ∀ v ∈ x :: xs, IsReadBack v)
    (rest : List Char) {fuel : Nat} {done : List Json}
    (hfuel : (separated (writeItems (x :: xs))).length < fuel) :
    scanItems fuel done (separated (writeItems (x :: xs)) ++ ']' :: rest)
      = .ok (.array (done.reverse ++ x :: xs), rest) := by
  induction xs generalizing x fuel done with
  | nil =>
    obtain ⟨fuel, rfl⟩ : ∃ n, fuel = n + 1 := ⟨fuel - 1, by omega⟩
    have hx : scanValue fuel (writeChars x ++ ']' :: rest) = .ok (x, ']' :: rest) :=
      h x (by simp) _ _ (Nat.lt_succ_iff.1 hfuel) (endsValue_bracket rest)
    rw [writeItems, writeItems, separated, scanItems, hx]
    simp [skipGap_of_endsValue (endsValue_bracket rest)]
  | cons y ys ih =>
    obtain ⟨fuel, rfl⟩ : ∃ n, fuel = n + 1 := ⟨fuel - 1, by omega⟩
    rw [writeItems, writeItems, separated_cons_cons, ← writeItems, List.length_append,
      List.length_cons, List.length_cons] at hfuel
    have hx := h x (by simp) fuel
      (',' :: ' ' :: (separated (writeItems (y :: ys)) ++ ']' :: rest)) (by omega)
      (endsValue_comma _)
    have hskip := ((startsValue_separated_items y ys).append (']' :: rest)).skipGap_blank
    have hothers : scanItems fuel (x :: done) (separated (writeItems (y :: ys)) ++ ']' :: rest)
        = .ok (.array ((x :: done).reverse ++ y :: ys), rest) :=
      ih (fun v hv => h v (List.mem_cons_of_mem _ hv)) (by omega)
    rw [writeItems, writeItems, separated_cons_cons, ← writeItems, List.append_assoc,
      List.cons_append, List.cons_append, scanItems, hx]
    simp only [skipGap_of_endsValue (endsValue_comma _), hskip, hothers]
    simp

theorem isReadBack_array {xs : List Json} (h : ∀ v ∈ xs, IsReadBack v) : IsReadBack (.array xs) := by
  intro fuel rest hfuel _
  obtain ⟨fuel, rfl⟩ : ∃ n, fuel = n + 1 :=
    ⟨fuel - 1, by have := length_writeChars_pos (.array xs); omega⟩
  cases xs with
  | nil => rfl
  | cons x xs =>
    rw [writeChars, List.cons_append, List.length_cons, List.length_append,
      List.length_singleton] at hfuel
    have hstart := (startsValue_separated_items x xs).append (']' :: rest)
    have hitems : scanItems fuel [] (separated (writeItems (x :: xs)) ++ ']' :: rest)
        = .ok (.array (x :: xs), rest) := scanItems_separated h rest (by omega)
    rw [writeChars, List.cons_append, List.cons_append, List.append_assoc, List.singleton_append,
      scanValue, hstart.skipGap_eq]
    obtain ⟨c, tail, hcons, hc⟩ := hstart
    rw [hcons] at hitems ⊢
    split
    · rename_i heq
      cases heq
      cases hc
    · exact hitems

/-! ## Objects -/

/-- The characters of a member of an object. -/
def memberChars (m : String × Json) : List Char := writeText m.1 ++ ':' :: ' ' :: writeChars m.2

theorem writeMembers_cons (m : String × Json) (ms : List (String × Json)) :
    writeMembers (m :: ms) = memberChars m :: writeMembers ms := rfl

/-- How a member is read: its name, a colon, its value. -/
theorem memberChars_read {m : String × Json} (h : IsReadBack m.2) {fuel : Nat} {next : List Char}
    (hfuel : (writeChars m.2).length ≤ fuel) (hnext : EndsValue next) :
    ∃ cs behind, memberChars m ++ next = '"' :: cs ∧ readText cs = .ok (m.1, ':' :: behind)
      ∧ scanValue fuel (skipGap behind) = .ok (m.2, next) := by
  obtain ⟨cs, hcs, hread⟩ := readText_writeText m.1 (':' :: ' ' :: (writeChars m.2 ++ next))
  refine ⟨cs, ' ' :: (writeChars m.2 ++ next), ?_, hread, ?_⟩
  · rw [← hcs, memberChars, List.append_assoc]
    rfl
  · rw [((startsValue_writeChars m.2).append next).skipGap_blank]
    exact h fuel next hfuel hnext

/-- The last member. -/
theorem scanMembers_last {m : String × Json} (h : IsReadBack m.2) {fuel : Nat}
    (hfuel : (writeChars m.2).length ≤ fuel) (done : List (String × Json)) (rest : List Char) :
    scanMembers (fuel + 1) done (memberChars m ++ '\x7d' :: rest)
      = .ok (.object (put m.1 m.2 done), rest) := by
  obtain ⟨cs, behind, htext, hread, hvalue⟩ := memberChars_read h hfuel (endsValue_brace rest)
  have hcolon : skipGap (':' :: behind) = ':' :: behind := rfl
  rw [htext, scanMembers, hread]
  simp only [hcolon, hvalue, skipGap_of_endsValue (endsValue_brace rest)]

/-- A member with others behind it. -/
theorem scanMembers_more {m : String × Json} (h : IsReadBack m.2) {fuel : Nat}
    (hfuel : (writeChars m.2).length ≤ fuel) (done : List (String × Json)) (rest : List Char) :
    scanMembers (fuel + 1) done (memberChars m ++ ',' :: rest)
      = scanMembers fuel (put m.1 m.2 done) (skipGap rest) := by
  obtain ⟨cs, behind, htext, hread, hvalue⟩ := memberChars_read h hfuel (endsValue_comma rest)
  have hcolon : skipGap (':' :: behind) = ':' :: behind := rfl
  rw [htext, scanMembers, hread]
  simp only [hcolon, hvalue, skipGap_of_endsValue (endsValue_comma rest)]

theorem startsValue_separated_members (m : String × Json) (ms : List (String × Json)) :
    StartsValue (separated (writeMembers (m :: ms))) := by
  cases ms <;> exact ⟨'"', _, rfl, by decide⟩

/-- The members of an object are read back behind those that were read before,
from which they differ in their names. -/
theorem scanMembers_separated {m : String × Json} {ms : List (String × Json)}
    (h : ∀ n ∈ m :: ms, IsReadBack n.2) (rest : List Char) {fuel : Nat}
    {done : List (String × Json)} (hnames : ((done ++ m :: ms).map (·.1)).Nodup)
    (hfuel : (separated (writeMembers (m :: ms))).length < fuel) :
    scanMembers fuel done (separated (writeMembers (m :: ms)) ++ '\x7d' :: rest)
      = .ok (.object (done ++ m :: ms), rest) := by
  have hput : put m.1 m.2 done = done ++ [m] := by
    refine put_of_not_mem m.2 fun hmem => ?_
    rw [List.map_append, List.nodup_append] at hnames
    exact hnames.2.2 m.1 hmem m.1 (by simp) rfl
  obtain ⟨fuel, rfl⟩ : ∃ n, fuel = n + 1 := ⟨fuel - 1, by omega⟩
  induction ms generalizing m fuel done with
  | nil =>
    rw [writeMembers_cons, writeMembers, separated] at hfuel ⊢
    have hlength : (writeChars m.2).length ≤ fuel := by
      rw [memberChars, List.length_append, List.length_cons, List.length_cons] at hfuel
      omega
    rw [scanMembers_last (h m (by simp)) hlength, hput]
  | cons n ns ih =>
    rw [writeMembers_cons, writeMembers_cons, separated_cons_cons, ← writeMembers_cons] at hfuel ⊢
    rw [List.length_append, memberChars, List.length_append, List.length_cons, List.length_cons,
      List.length_cons, List.length_cons] at hfuel
    have hskip := ((startsValue_separated_members n ns).append ('\x7d' :: rest)).skipGap_blank
    rw [List.append_assoc, List.cons_append, List.cons_append,
      scanMembers_more (h m (by simp)) (by omega)]
    obtain ⟨fuel, rfl⟩ : ∃ n, fuel = n + 1 := ⟨fuel - 1, by omega⟩
    have hnames' : ((done ++ [m] ++ n :: ns).map (·.1)).Nodup := by simpa using hnames
    rw [hskip, hput, ih (fun v hv => h v (List.mem_cons_of_mem _ hv)) hnames' ?_ fuel (by omega)]
    · simp
    · refine put_of_not_mem n.2 fun hmem => ?_
      rw [List.map_append, List.nodup_append] at hnames'
      exact hnames'.2.2 n.1 hmem n.1 (by simp) rfl

theorem isReadBack_object {ms : List (String × Json)} (hnames : (ms.map (·.1)).Nodup)
    (h : ∀ m ∈ ms, IsReadBack m.2) : IsReadBack (.object ms) := by
  intro fuel rest hfuel _
  obtain ⟨fuel, rfl⟩ : ∃ n, fuel = n + 1 :=
    ⟨fuel - 1, by have := length_writeChars_pos (.object ms); omega⟩
  cases ms with
  | nil => rfl
  | cons m ms =>
    rw [writeChars, List.cons_append, List.length_cons, List.length_append,
      List.length_singleton] at hfuel
    have hstart := (startsValue_separated_members m ms).append ('\x7d' :: rest)
    have hmembers : scanMembers fuel [] (separated (writeMembers (m :: ms)) ++ '\x7d' :: rest)
        = .ok (.object (m :: ms), rest) := scanMembers_separated h rest hnames (by omega)
    rw [writeChars, List.cons_append, List.cons_append, List.append_assoc, List.singleton_append,
      scanValue, hstart.skipGap_eq]
    obtain ⟨c, tail, hcons, hc⟩ := hstart
    rw [hcons] at hmembers ⊢
    split
    · rename_i heq
      cases heq
      cases hc
    · exact hmembers

/-! ## Whole texts -/

/-- Every value without repeated names and without numbers that are too long. -/
theorem isReadBack {j : Json} (hproper : IsProper j) (hwritable : j.toValue.isWritable = true) :
    IsReadBack j := by
  induction j using induction_on_parts with
  | h j ih =>
    cases j with
    | null => exact isReadBack_of_scanAtom ⟨'n', _, rfl, by decide⟩ fun rest _ =>
        scanAtom_word (by simp [words, writeChars]) rest
    | bool b =>
      cases b
      · exact isReadBack_of_scanAtom ⟨'f', _, rfl, by decide⟩ fun rest _ =>
          scanAtom_word (by simp [words, writeChars]) rest
      · exact isReadBack_of_scanAtom ⟨'t', _, rfl, by decide⟩ fun rest _ =>
          scanAtom_word (by simp [words, writeChars]) rest
    | int n =>
      have hstart : StartsAtom (writeChars (.int n)) := (startsNumber_chars n).startsAtom
      exact isReadBack_of_scanAtom hstart fun rest hrest => scanAtom_chars hwritable hrest
    | float x =>
      have hstart : StartsAtom (writeChars (.float x)) := startsAtom_writeFloat x
      exact isReadBack_of_scanAtom hstart fun rest hrest => scanAtom_writeFloat x hrest
    | text s => exact isReadBack_text s
    | array xs =>
      rw [isProper_array_iff] at hproper
      rw [isWritable_array_iff] at hwritable
      exact isReadBack_array fun v hv => ih v hv (hproper v hv) (hwritable v hv)
    | object ms =>
      rw [isProper_object_iff] at hproper
      rw [isWritable_object_iff] at hwritable
      exact isReadBack_object hproper.1 fun m hm =>
        ih m.2 (List.mem_map_of_mem hm) (hproper.2 m hm) (hwritable m hm)

theorem endsValue_nil : EndsValue [] := by simp [EndsValue]

/-- Reading undoes writing. -/
theorem scan_writeChars {j : Json} (hproper : IsProper j) (hwritable : j.toValue.isWritable = true) :
    scan (writeChars j) = .ok j := by
  have hread : scanValue (fuelFor (writeChars j)) (writeChars j) = .ok (j, []) := by
    have hfuel : (writeChars j).length ≤ fuelFor (writeChars j) := by
      rw [fuelFor]
      omega
    have hback := isReadBack hproper hwritable _ [] hfuel endsValue_nil
    rwa [List.append_nil] at hback
  have hstart := startsValue_writeChars j
  have hskip := hstart.skipGap_eq
  obtain ⟨c, tail, hcons, hc⟩ := hstart
  rw [hcons] at hread hskip ⊢
  unfold scan
  split
  · rename_i heq
    cases heq
    cases hc
  · rw [hskip, hread]
    rfl

theorem read_write {j : Json} (hproper : IsProper j) (hwritable : j.toValue.isWritable = true) :
    read j.write.toList = .ok j := by
  rw [read, write, String.toList_ofList, scan_writeChars hproper hwritable]

/-! ## One line of printable characters -/

theorem writeItems_eq_map (xs : List Json) : writeItems xs = xs.map writeChars := by
  induction xs with
  | nil => rfl
  | cons x xs ih => rw [writeItems, ih, List.map_cons]

theorem writeMembers_eq_map (ms : List (String × Json)) : writeMembers ms = ms.map memberChars := by
  induction ms with
  | nil => rfl
  | cons m ms ih => rw [writeMembers_cons, ih, List.map_cons]

end FieldCheck.Json
