/-
FieldCheck.Proofs.Check.Locality — a check sees nothing but what its paths lead to.

A check reads a record only by following the paths of its descriptors. Two records in
which they lead to the same values are one and the same to it: it ends with the same
outcome or fault, and with the same log (`check_congr`).

`Path.assign` is the change of a record in one place: a value is put at the end of a path,
in the place of another one or under a key that is new. A path is `Apart` from it if it
neither ends on the way to that place nor goes on from there. At some key the two paths
part, and the dictionary there gives the one what it gave before, whatever is put under
the key of the other (`resolve_assign`). So descriptors with such paths do not notice the
change (`check_of_apart`).

No path of a descriptor goes through a key with a `/` in it, because paths are cut there.
-/
import FieldCheck.Proofs.Check.Extension

namespace FieldCheck

namespace Value

/-- The value can be a key, and what is put under it is found again. -/
structure IsKey (key : Value) : Prop where
  asKey_eq : key.asKey = .ok key
  same : sameKey key key = true

theorem isKey_text (s : String) : (text s).IsKey := ⟨rfl, (sameKey_text s _).2 rfl⟩

end Value

/-! ## A change in one place -/

namespace Path

open Value

/-- The value with another one put at the end of a path. Where the way there is not
complete, nothing is put. -/
def assign (new : Value) : List Value → Value → Value
  | [], _ => new
  | [key], .dict es => .dict (put key new es)
  | key :: rest, .dict es =>
    match lookup key es with
    | some v => .dict (put key (assign new rest v) es)
    | none => .dict es
  | _ :: _, v => v

/-- The way to the end of the path is there: whatever is in front of one of its keys leads
to a dictionary. -/
def HasWay (p : List Value) (v : Value) : Prop :=
  ∀ front key rest, p = front ++ key :: rest → ∃ es, follow front v = .ok (some (.dict es))

/-- Neither of the paths is the beginning of the other. -/
structure Apart (p : List Value) (q : List String) : Prop where
  not_beyond : ¬ p <+: q.map .text
  not_before : ¬ q.map .text <+: p

variable {p rest : List Value} {key new v : Value} {q : List String}

theorem assign_cons {key' : Value} (rest : List Value) (es : List (Value × Value)) :
    assign new (key :: key' :: rest) (.dict es)
      = match lookup key es with
        | some v => .dict (put key (assign new (key' :: rest) v) es)
        | none => .dict es := rfl

theorem HasWay.exists_dict (h : HasWay (key :: rest) v) : ∃ es, v = .dict es := by
  obtain ⟨es, hes⟩ := h [] key rest rfl
  rw [follow, Except.ok.injEq, Option.some.injEq] at hes
  exact ⟨es, hes⟩

/-- Behind its first key, the path has a way as well. -/
theorem HasWay.exists_lookup {key' : Value} {es : List (Value × Value)}
    (h : HasWay (key :: key' :: rest) (.dict es)) :
    ∃ w, lookup key es = some w ∧ HasWay (key' :: rest) w := by
  obtain ⟨fs, hfs⟩ := h [key] key' rest rfl
  rw [follow] at hfs
  cases hkey : key.asKey with
  | error f => simp [hkey] at hfs
  | ok k =>
    obtain rfl : key = k := by
      rw [asKey] at hkey
      split at hkey <;> cases hkey
      rfl
    rw [hkey] at hfs
    cases hw : lookup key es with
    | none => simp [hw] at hfs
    | some w =>
      refine ⟨w, rfl, fun front next behind hp => ?_⟩
      obtain ⟨gs, hgs⟩ := h (key :: front) next behind (by rw [hp]; rfl)
      refine ⟨gs, ?_⟩
      simpa [follow, hkey, hw] using hgs

/-- Where there is a way, the path leads to what was put at its end. -/
theorem follow_assign (new : Value) (hp : ∀ key ∈ p, key.IsKey) (h : HasWay p v) :
    follow p (assign new p v) = .ok (some new) := by
  induction p generalizing v with
  | nil => rfl
  | cons key rest ih =>
    obtain ⟨hkey, hrest⟩ := List.forall_mem_cons.1 hp
    obtain ⟨es, rfl⟩ := h.exists_dict
    cases rest with
    | nil =>
      rw [assign, follow, hkey.asKey_eq]
      simp [lookup_put_self hkey.same, follow]
    | cons key' rest =>
      obtain ⟨w, hw, hway⟩ := h.exists_lookup
      rw [assign_cons, hw, follow, hkey.asKey_eq]
      simp only [lookup_put_self hkey.same]
      exact ih hrest hway

/-- Under another key nothing changes. -/
theorem field?_assign {s : String} (hkey : key ≠ .text s) (new : Value) (rest : List Value)
    (v : Value) : (assign new (key :: rest) v).field? s = v.field? s := by
  cases v with
  | dict es =>
    cases rest with
    | nil => exact field_put_of_ne hkey new es
    | cons key' rest =>
      rw [assign_cons]
      split
      · exact field_put_of_ne hkey _ es
      · rfl
  | _ => cases rest <;> rfl

/-- A path that is apart from the one at whose end something is put leads to what it led
to before. -/
theorem resolve_assign (h : Apart p q) (new v : Value) :
    resolve q (assign new p v) = resolve q v := by
  -- The induction is on the part of the two paths that is the same.
  induction p generalizing q v with
  | nil => exact absurd List.nil_prefix h.not_beyond
  | cons key rest ih =>
    cases q with
    | nil => exact absurd List.nil_prefix h.not_before
    | cons s q =>
      by_cases hkey : key = .text s
      · subst hkey
        have hrest : Apart rest q :=
          ⟨fun hpre => h.not_beyond (by simpa using hpre),
            fun hpre => h.not_before (by simpa using hpre)⟩
        cases rest with
        | nil => exact absurd List.nil_prefix hrest.not_beyond
        | cons key' rest =>
          cases v with
          | dict es =>
            rw [assign_cons]
            cases hw : lookup (.text s) es with
            | none => rfl
            | some w =>
              have hnew := lookup_put_self (isKey_text s).same (assign new (key' :: rest) w) es
              simp only [resolve, field, hnew, hw]
              exact ih hrest w
          | _ => rfl
      · rw [resolve_cons, resolve_cons, field?_assign hkey]

end Path

/-! ## Two records -/

open Traced

variable {record other new d : Value} {p : List Value}

namespace Descriptor

/-- The path of a descriptor leads to the same in both records. -/
def SeesSame (record other d : Value) : Prop :=
  ∀ s r, d = .text s → parse s = .ok r → Path.resolve r.path other = Path.resolve r.path record

theorem isMet_congr (h : SeesSame record other d) : isMet d other = isMet d record := by
  cases d with
  | text s =>
    refine bind_congr fun r hr => ?_
    rw [parseValue, result_parseLogged] at hr
    rw [Requirement.isMet, Requirement.isMet, h s r rfl hr]
  | _ => rfl

end Descriptor

open Descriptor (SeesSame)

theorem anyMet_congr {ds : List Value} (h : ∀ d ∈ ds, SeesSame record other d) :
    anyMet ds other = anyMet ds record := by
  induction ds with
  | nil => rfl
  | cons d rest ih =>
    obtain ⟨hd, hrest⟩ := List.forall_mem_cons.1 h
    rw [anyMet, anyMet, Descriptor.isMet_congr hd, ih hrest]

theorem failures_congr {items : List Item}
    (h : ∀ i ∈ items, ∀ d ∈ i.members, SeesSame record other d) :
    failures items other = failures items record := by
  induction items with
  | nil => rfl
  | cons i rest ih =>
    obtain ⟨hi, hrest⟩ := List.forall_mem_cons.1 h
    rw [failures, failures, Item.failure, Item.failure, anyMet_congr hi, ih hrest]

/-- A check does the same on two records in which the paths of its descriptors lead to
the same values. -/
theorem check_congr {descriptors : Value} (h : ∀ items, Item.listOf descriptors = .ok items →
    ∀ i ∈ items, ∀ d ∈ i.members, SeesSame record other d) :
    check descriptors other = check descriptors record := by
  refine bind_congr fun items hitems => ?_
  rw [checkItems, checkItems, failures_congr (h items hitems)]

/-! ## Descriptors that avoid a change -/

namespace Descriptor

/-- The path of a descriptor is apart from another path. -/
def Avoids (p : List Value) (d : Value) : Prop :=
  ∀ s r, d = .text s → parse s = .ok r → Path.Apart p r.path

theorem Avoids.seesSame (h : Avoids p d) (new record : Value) :
    SeesSame record (Path.assign new p record) d := fun s r hd hr =>
  Path.resolve_assign (h s r hd hr) new record

theorem avoids_of_parse {s : String} {r : Requirement} (hs : parse s = .ok r)
    (h : Path.Apart p r.path) : Avoids p (.text s) := by
  rintro _ r' ⟨⟩ hr'
  rw [hs, Except.ok.injEq] at hr'
  exact hr' ▸ h

/-- No path of a descriptor begins or ends with a key with a `/` in it. -/
theorem avoids_of_slash {key : String} (h : '/' ∈ key.toList) (d : Value) :
    Avoids [.text key] d := by
  intro s r _ hr
  have hcanonical := isCanonical_of_parse hr
  have hkey : key ∉ r.path := fun hmem => hcanonical.slash_not_mem key hmem h
  cases hpath : r.path with
  | nil => exact absurd hpath hcanonical.path_ne_nil
  | cons segment rest =>
    have hne : segment ≠ key := by
      rintro rfl
      exact hkey (by simp [hpath])
    exact ⟨by simp [hne.symm], by simp [hne]⟩

end Descriptor

/-- A value that is put at the end of a path is found there, and by nothing else: every
descriptor whose path is apart from it does the same as before, and so does every check
with such descriptors only. No descriptor notices a change under a key with a `/` in it
at the top of a record. -/
theorem check_of_apart (new : Value) (hway : Path.HasWay p record) :
    ((∀ key ∈ p, key.IsKey) → Path.follow p (Path.assign new p record) = .ok (some new))
    ∧ (∀ (d : String) (r : Requirement), Descriptor.parse d = .ok r → Path.Apart p r.path →
        Descriptor.isMet (.text d) (Path.assign new p record) = Descriptor.isMet (.text d) record)
    ∧ (∀ descriptors : Value, (∀ items, Item.listOf descriptors = .ok items →
          ∀ i ∈ items, ∀ d ∈ i.members, Descriptor.Avoids p d) →
        check descriptors (Path.assign new p record) = check descriptors record)
    ∧ ∀ key : String, p = [.text key] → '/' ∈ key.toList →
        (∀ d, Descriptor.isMet d (Path.assign new p record) = Descriptor.isMet d record)
          ∧ ∀ descriptors,
            check descriptors (Path.assign new p record) = check descriptors record := by
  refine ⟨fun hkeys => Path.follow_assign new hkeys hway, fun d r hd hapart => ?_,
    fun descriptors hall => ?_, ?_⟩
  · exact Descriptor.isMet_congr ((Descriptor.avoids_of_parse hd hapart).seesSame new record)
  · exact check_congr fun items hitems i hi d hd =>
      (hall items hitems i hi d hd).seesSame new record
  · rintro key rfl hslash
    have hsame : ∀ d, SeesSame record (Path.assign new [.text key] record) d := fun d =>
      (Descriptor.avoids_of_slash hslash d).seesSame new record
    exact ⟨fun d => Descriptor.isMet_congr (hsame d),
      fun descriptors => check_congr fun _ _ _ _ d _ => hsame d⟩

/-- A record with a phone number. -/
def card : Value := .dict [(.text "contact", .dict [(.text "phone", .text "0")]), (.int 1, .null)]

def cardDescriptors : Value :=
  .list [.text "*contact/phone", .tuple [.text "mail", .text "(int)contact/ma"]]

theorem hasWay_card : Path.HasWay [.text "contact", .text "mail"] card := by
  rintro front key rest h
  rcases front with _ | ⟨first, _ | ⟨second, front⟩⟩
  · exact ⟨_, rfl⟩
  · obtain ⟨rfl, -⟩ := List.cons_eq_cons.1 h
    exact ⟨_, rfl⟩
  · simp at h

theorem hasWay_card_top : Path.HasWay [.text "contact/phone"] card := by
  rintro front key rest h
  rcases front with _ | ⟨first, front⟩
  · exact ⟨_, rfl⟩
  · simp at h

theorem check_of_apart_card :
    Path.HasWay [.text "contact", .text "mail"] card
      ∧ Path.assign (.int 5) [.text "contact", .text "mail"] card
        = .dict [(.text "contact", .dict [(.text "phone", .text "0"), (.text "mail", .int 5)]),
          (.int 1, .null)]
      ∧ check cardDescriptors (Path.assign (.int 5) [.text "contact", .text "mail"] card)
        = check cardDescriptors card
      ∧ Path.HasWay [.text "contact/phone"] card
      ∧ check cardDescriptors (Path.assign .null [.text "contact/phone"] card)
        = check cardDescriptors card := by
  have hphone : Descriptor.parse "*contact/phone"
      = .ok ⟨true, .any, none, ["contact", "phone"], "", []⟩ := rfl
  have hmail : Descriptor.parse "mail" = .ok ⟨false, .any, none, ["mail"], "", []⟩ := rfl
  have hma : Descriptor.parse "(int)contact/ma"
      = .ok ⟨false, .integer, none, ["contact", "ma"], "int", []⟩ := rfl
  have hall : ∀ items, Item.listOf cardDescriptors = .ok items → ∀ i ∈ items, ∀ d ∈ i.members,
      Descriptor.Avoids [.text "contact", .text "mail"] d := by
    rintro items ⟨⟩
    simp only [List.map_cons, List.map_nil, Item.ofValue, List.forall_mem_cons, Item.members]
    refine ⟨⟨Descriptor.avoids_of_parse hphone ⟨by simp, by simp⟩, by simp⟩,
      ⟨Descriptor.avoids_of_parse hmail ⟨by simp, by simp⟩,
        Descriptor.avoids_of_parse hma ⟨by simp, by simp⟩, by simp⟩, by simp⟩
  exact ⟨hasWay_card, rfl, (check_of_apart (.int 5) hasWay_card).2.2.1 cardDescriptors hall,
    hasWay_card_top, ((check_of_apart .null hasWay_card_top).2.2.2 _ rfl (by decide)).2 _⟩

end FieldCheck
