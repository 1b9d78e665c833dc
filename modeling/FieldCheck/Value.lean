/-
FieldCheck.Value — the values that records, catalogs and requests hold.

A value is nothing, a truth value, a whole number of any size, a
floating-point number, a text, a byte string, a list, a tuple or a
dictionary. A dictionary keeps its entries in the order in which their keys
were first put, and its keys may be of any kind that can be a key.

These are the values of JSON and those of YAML, but for dates, timestamps and
sets, which are left out, as are mappings of other classes than dictionaries.
Texts are sequences of Unicode characters, so there is no half of a surrogate
pair in them.

Keys are compared by `sameKey`: numbers by their numeric value, so that 1,
1.0 and true are one key, tuples part by part, and all else within its kind.
Lists and dictionaries are never keys. On a text key the comparison is plain
equality (`sameKey_text`).
-/
import FieldCheck.Number.Double
import FieldCheck.Fault

namespace FieldCheck

/-- A value of a record, a catalog or a request. -/
inductive Value where
  | null
  | bool (b : Bool)
  | int (n : Int)
  | float (x : Double)
  | text (s : String)
  | bytes (bs : List UInt8)
  | list (items : List Value)
  | tuple (items : List Value)
  | dict (entries : List (Value × Value))

namespace Value

instance : Inhabited Value := ⟨null⟩

/-! ## Kinds and truth -/

/-- The name of a value's kind. -/
def kind : Value → String
  | null => "NoneType"
  | bool _ => "bool"
  | int _ => "int"
  | float _ => "float"
  | text _ => "str"
  | bytes _ => "bytes"
  | list _ => "list"
  | tuple _ => "tuple"
  | dict _ => "dict"

/-- A value counts as true unless it is nothing, false, zero or empty. -/
def truthy : Value → Bool
  | null => false
  | bool b => b
  | int n => n ≠ 0
  | float x => !x.isZero
  | text s => !s.isEmpty
  | bytes bs => !bs.isEmpty
  | list xs => !xs.isEmpty
  | tuple xs => !xs.isEmpty
  | dict es => !es.isEmpty

/-- A text. -/
def isText : Value → Bool
  | text _ => true
  | _ => false

/-- The text that a value is. -/
def text? : Value → Option String
  | text s => some s
  | _ => none

@[simp] theorem text?_text (s : String) : (text s).text? = some s := rfl

/-! ## Keys -/

/-- The floating-point number equals the whole number. -/
def equalsInt (x : Double) (n : Int) : Bool := x.toInt? = some n

/-- Values other than tuples as keys. -/
def sameAtom : Value → Value → Bool
  | null, null => true
  | bool a, bool b => a = b
  | bool a, int n => n = a.toInt
  | int n, bool a => n = a.toInt
  | bool a, float x => equalsInt x a.toInt
  | float x, bool a => equalsInt x a.toInt
  | int m, int n => m = n
  | int n, float x => equalsInt x n
  | float x, int n => equalsInt x n
  | float x, float y => x.same y
  | text s, text t => s = t
  | bytes a, bytes b => a = b
  | _, _ => false

mutual

/-- The two values are the same key. -/
def sameKey : Value → Value → Bool
  | tuple xs, tuple ys => sameKeys xs ys
  | a, b => sameAtom a b

/-- The parts of two tuples are the same keys. -/
def sameKeys : List Value → List Value → Bool
  | [], [] => true
  | x :: xs, y :: ys => sameKey x y && sameKeys xs ys
  | _, _ => false

end

/-- A text is the same key as itself alone. -/
theorem sameKey_text (s : String) (v : Value) : sameKey (text s) v = true ↔ v = text s := by
  cases v <;> simp [sameKey, sameAtom, eq_comm]

theorem eq_text_of_sameKey {v : Value} {s : String} (h : sameKey v (text s) = true) :
    v = text s := by
  cases v <;> simp_all [sameKey, sameAtom]

mutual

/-- The kind of the part because of which a value cannot be a key. -/
def unhashablePart : Value → Option String
  | list _ => some "list"
  | dict _ => some "dict"
  | tuple xs => unhashableParts xs
  | _ => none

/-- The first such part among several values. -/
def unhashableParts : List Value → Option String
  | [] => none
  | x :: xs => (unhashablePart x).or (unhashableParts xs)

end

/-- The value, if it can be a key. -/
def asKey (v : Value) : Except Fault Value :=
  match v.unhashablePart with
  | none => .ok v
  | some kind => .error (.unhashable kind)

/-! ## Dictionaries -/

/-- The value under a key. -/
def lookup (key : Value) (entries : List (Value × Value)) : Option Value :=
  (entries.find? fun e => sameKey key e.1).map (·.2)

/-- The value under a text key. -/
def field (name : String) (entries : List (Value × Value)) : Option Value :=
  lookup (text name) entries

/-- Puts a value under a key: in the place of the entry that has the key, or at the end. -/
def put (key value : Value) : List (Value × Value) → List (Value × Value)
  | [] => [(key, value)]
  | (k, v) :: rest => if sameKey key k then (k, value) :: rest else (k, v) :: put key value rest

/-- The field of a value that is a dictionary. -/
def field? (name : String) : Value → Option Value
  | dict es => field name es
  | _ => none

theorem lookup_cons (key k v : Value) (rest : List (Value × Value)) :
    lookup key ((k, v) :: rest) = if sameKey key k then some v else lookup key rest := by
  rw [lookup, lookup, List.find?_cons]
  cases sameKey key k <;> rfl

/-- What is put under a key is found there, if the key is the same as itself. -/
theorem lookup_put_self {key : Value} (h : sameKey key key = true) (v : Value)
    (es : List (Value × Value)) : lookup key (put key v es) = some v := by
  induction es with
  | nil => rw [put, lookup_cons, if_pos h]
  | cons e es ih =>
    obtain ⟨k, w⟩ := e
    by_cases hk : sameKey key k = true
    · rw [put, if_pos hk, lookup_cons, if_pos hk]
    · rw [put, if_neg hk, lookup_cons, if_neg hk, ih]

/-- What is put under another key does not change what a text leads to. -/
theorem field_put_of_ne {key : Value} {s : String} (h : key ≠ text s) (v : Value)
    (es : List (Value × Value)) : field s (put key v es) = field s es := by
  have hkey : ¬ sameKey (text s) key = true := fun hsame => h ((sameKey_text s key).1 hsame)
  induction es with
  | nil => rw [put, field, lookup_cons, if_neg hkey, field]
  | cons e es ih =>
    obtain ⟨k, w⟩ := e
    by_cases hk : sameKey key k = true
    · -- The entry that is replaced has a key like `key`, so it is not that of the text either.
      have hne : ¬ sameKey (text s) k = true := by
        intro hsame
        rw [(sameKey_text s k).1 hsame] at hk
        exact h (eq_text_of_sameKey hk)
      rw [put, if_pos hk, field, field, lookup_cons, lookup_cons, if_neg hne, if_neg hne]
    · rw [put, if_neg hk, field, field, lookup_cons, lookup_cons, ← field, ← field, ih]

/-! ## Elements -/

/-- The elements that a value is made of, in order: those of a list or
tuple, the characters of a text, the numbers of a byte string, the keys of a
dictionary. -/
def elements : Value → Except Fault (List Value)
  | list xs => .ok xs
  | tuple xs => .ok xs
  | text s => .ok (s.toList.map fun c => text (String.singleton c))
  | bytes bs => .ok (bs.map fun b => int b.toNat)
  | dict es => .ok (es.map (·.1))
  | v => .error (.notIterable v.kind)

/-- The texts among values that are all texts, or the first that is none. -/
def textsFrom (index : Nat) : List Value → Except Fault (List String)
  | [] => .ok []
  | text s :: rest => (textsFrom (index + 1) rest).map (s :: ·)
  | v :: _ => .error (.labelNotText index v.kind)

/-- The texts that the values are; the first value that is no text is a fault. -/
def texts (vs : List Value) : Except Fault (List String) := textsFrom 0 vs

theorem textsFrom_map_text (i : Nat) (ss : List String) :
    textsFrom i (ss.map text) = .ok ss := by
  induction ss generalizing i with
  | nil => rfl
  | cons s ss ih => simp [textsFrom, ih, Except.map]

@[simp] theorem texts_map_text (ss : List String) : texts (ss.map text) = .ok ss :=
  textsFrom_map_text 0 ss

end Value

end FieldCheck
