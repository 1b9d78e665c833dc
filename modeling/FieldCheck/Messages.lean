/-
FieldCheck.Messages — where the texts of reports come from.

Messages are looked up by a key. They come from a table of entries that a
caller gives, or from a catalog: a dictionary whose section `warnings` holds
the texts. In a catalog every key and every text is taken as it would be
shown, so that keys of different kinds may coincide; the last one counts.

There are no other sources: one of a caller's own class, which could answer
differently from time to time or fail, is left out.

A key that is missing falls back to the built-in text, and to a fault if
there is none. A catalog logs a warning on every missing key, a table does
not.

`get` looks up a text. `find` looks up any value: a table may have it as a
key, a catalog has texts only, and what cannot be a key is a fault. On texts
the two agree (`find_text`).
-/
import FieldCheck.Log
import FieldCheck.Value.Display

namespace FieldCheck

/-- A source of messages. -/
inductive Messages where
  | table (entries : List (Value × Value))
  | catalog (texts : List (String × String))

namespace Messages

/-! ## Keys and built-in texts -/

/-- The key of the message in front of a report. -/
def reportKey : String := "FieldsAreRequiredOrInvalid"

/-- The texts that are always there. -/
def builtIn : List (String × String) :=
  [(reportKey, "The following fields are required or invalid: ")]

/-- The built-in text for a key. -/
def fallback (key : String) : Except Fault String :=
  match builtIn.find? fun e => e.1 = key with
  | some e => .ok e.2
  | none => .error (.unknownMessage key)

/-- The built-in text for a key of any kind. Only texts have one. -/
def fallbackFor : Value → Except Fault String
  | .text key => fallback key
  | key =>
    match key.display with
    | .ok s => .error (.unknownMessage s)
    | .error f => .error f

/-! ## Tables -/

/-- The pair that an element of a list of pairs is. -/
def pairOf (index : Nat) (v : Value) : Except Fault (Value × Value) :=
  match v.elements with
  | .error _ => .error (.entryNotSequence index)
  | .ok [key, value] =>
    match key.asKey with
    | .ok k => .ok (k, value)
    | .error f => .error f
  | .ok parts => .error (.entryLength index parts.length)

/-- Puts the pairs of a list into a dictionary, one after the other. -/
def putPairs (index : Nat) (done : List (Value × Value)) :
    List Value → Except Fault (List (Value × Value))
  | [] => .ok done
  | v :: rest =>
    match pairOf index v with
    | .error f => .error f
    | .ok (k, x) => putPairs (index + 1) (Value.put k x done) rest

/-- The table that a value stands for: nothing, a dictionary, or a list of pairs. -/
def ofTable (v : Value) : Except Fault Messages :=
  if v.truthy then
    match v with
    | .dict entries => .ok (table entries)
    | _ =>
      match v.elements with
      | .error f => .error f
      | .ok vs => (putPairs 0 [] vs).map table
  else .ok (table [])

/-- The table without entries. -/
def standard : Messages := table []

/-! ## Catalogs -/

/-- The section of a catalog that holds the texts of warnings. -/
def warningsSection : String := "warnings"

/-- The entries of a section as they are shown. -/
def shownEntries : List (Value × Value) → Except Fault (List (String × String))
  | [] => .ok []
  | (k, v) :: rest =>
    match k.display with
    | .error f => .error f
    | .ok key =>
      match v.display with
      | .error f => .error f
      | .ok text => (shownEntries rest).map ((key, text) :: ·)

/-- The entries of the section, which may be missing or empty. -/
def sectionEntries (catalog : List (Value × Value)) : Except Fault (List (Value × Value)) :=
  match Value.field warningsSection catalog with
  | none => .ok []
  | some v =>
    if v.truthy then
      match v with
      | .dict entries => .ok entries
      | _ => .error (.sectionNotMapping warningsSection v.kind)
    else .ok []

/-- The messages of a catalog. -/
def ofCatalog : Value → Except Fault Messages
  | .dict entries => (sectionEntries entries >>= shownEntries).map catalog
  | v => .error (.catalogNotMapping v.kind)

/-! ## Looking up -/

/-- The log record on a key that a catalog lacks. -/
def missingRecord (key : String) : LogRecord :=
  ⟨.warning, .messages,
    "Message key " ++ Text.quote key ++ " missing from catalog, using default"⟩

/-- The log record on a key of any kind that a catalog lacks. -/
def missingRecordFor (key : Value) : LogRecord :=
  ⟨.warning, .messages, "Message key " ++ key.quoted ++ " missing from catalog, using default"⟩

/-- The last text under a key. -/
def lastText (key : String) (texts : List (String × String)) : Option String :=
  (texts.reverse.find? fun e => e.1 = key).map (·.2)

/-- The message under a key. A table may hold values that are no texts. -/
def get (key : String) : Messages → Traced Value
  | table entries =>
    match Value.field key entries with
    | some v => pure v
    | none => Traced.ofExcept ((fallback key).map .text)
  | catalog texts =>
    match lastText key texts with
    | some s => pure (.text s)
    | none => do
      Traced.write (missingRecord key)
      Traced.ofExcept ((fallback key).map .text)

/-- What is found when a catalog lacks a key. A key that cannot be written is not logged. -/
def missing (key : Value) : Traced Value := do
  if key.isWritable then Traced.write (missingRecordFor key) else pure ()
  Traced.ofExcept ((fallbackFor key).map .text)

/-- The message under a key of any kind. -/
def find (key : Value) (m : Messages) : Traced Value :=
  match key.asKey, m with
  | .error f, _ => Traced.fail f
  | .ok k, table entries =>
    match Value.lookup k entries with
    | some v => pure v
    | none => Traced.ofExcept ((fallbackFor k).map .text)
  | .ok k, catalog texts =>
    match k.text?.bind fun s => lastText s texts with
    | some s => pure (.text s)
    | none => missing k

/-- On texts both ways of looking up find the same. -/
theorem find_text (key : String) (m : Messages) : m.find (.text key) = m.get key := by
  cases m with
  | table entries => rfl
  | catalog texts =>
    simp only [find, get, Value.asKey, Value.unhashablePart, Value.text?_text, Option.bind_some]
    cases lastText key texts <;> rfl

theorem get_catalog_of_some {key s : String} {texts : List (String × String)}
    (h : lastText key texts = some s) : (catalog texts).get key = pure (.text s) := by
  simp [get, h]

theorem get_catalog_of_none {key : String} {texts : List (String × String)}
    (h : lastText key texts = none) :
    (catalog texts).get key =
      ⟨(fallback key).map .text, [missingRecord key]⟩ := by
  simp only [get, h]
  rfl

/-- A catalog always has a text to put in front of a report. -/
theorem get_reportKey_catalog (texts : List (String × String)) :
    ∃ s, ((catalog texts).get reportKey).result = .ok (.text s) := by
  cases h : lastText reportKey texts with
  | some s => exact ⟨s, by simp [get_catalog_of_some h]⟩
  | none => exact ⟨_, by rw [get_catalog_of_none h]; rfl⟩

end Messages

end FieldCheck
