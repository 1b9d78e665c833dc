/-
FieldCheck.Proofs.Messages — what a catalog says under a key.

A catalog is any value: it need not be a dictionary, its section for warnings may be
missing or of another kind, and the keys in it may be of different kinds and still be
shown as the same text. `IsMalformed` and `HasSection` say which catalogs are refused
and which entries the others have, without the steps in which they are read.

`ofCatalog_lookup` says that these are the only two cases, and what is then found: the
last of the entries whose key is shown as the text that is looked up, or else the
built-in text. The key of reports has a built-in text, so a catalog that was accepted
always has something to put in front of a report.
-/
import FieldCheck.Engine

namespace FieldCheck.Messages

/-! ## Catalogs -/

/-- Why a catalog is refused: it is no dictionary, or its section for warnings is
something else that counts as true. -/
inductive IsMalformed : Value → Fault → Prop
  | whole {c : Value} (h : ∀ es, c ≠ .dict es) : IsMalformed c (.catalogNotMapping c.kind)
  | part {es : List (Value × Value)} {v : Value} (h : Value.field warningsSection es = some v)
      (hv : v.truthy = true) (hother : ∀ entries, v ≠ .dict entries) :
      IsMalformed (.dict es) (.sectionNotMapping warningsSection v.kind)

/-- The entries of the section for warnings. A section that counts as false has none. -/
inductive HasSection : Value → List (Value × Value) → Prop
  | missing {es : List (Value × Value)} (h : Value.field warningsSection es = none) :
      HasSection (.dict es) []
  | falsy {es : List (Value × Value)} {v : Value} (h : Value.field warningsSection es = some v)
      (hv : v.truthy = false) : HasSection (.dict es) []
  | given {es entries : List (Value × Value)}
      (h : Value.field warningsSection es = some (.dict entries)) (hne : entries ≠ []) :
      HasSection (.dict es) entries

/-- There is no third kind of catalog. -/
theorem isMalformed_or_hasSection (c : Value) :
    (∃ f, IsMalformed c f) ∨ ∃ entries, HasSection c entries := by
  cases c with
  | dict es =>
    cases hfield : Value.field warningsSection es with
    | none => exact .inr ⟨[], .missing hfield⟩
    | some v =>
      cases hv : v.truthy with
      | false => exact .inr ⟨[], .falsy hfield hv⟩
      | true =>
        cases v with
        | dict entries =>
          refine .inr ⟨entries, .given hfield ?_⟩
          rintro rfl
          cases hv
        | _ => exact .inl ⟨_, .part hfield hv (by simp)⟩
  | _ => exact .inl ⟨_, .whole (by simp)⟩

theorem ofCatalog_of_isMalformed {c : Value} {f : Fault} (h : IsMalformed c f) :
    ofCatalog c = .error f := by
  cases h with
  | whole h =>
    cases c with
    | dict es => exact absurd rfl (h es)
    | _ => rfl
  | @part es v hfield hv hother =>
    have hentries : sectionEntries es = .error (.sectionNotMapping warningsSection v.kind) := by
      cases v with
      | dict entries => exact absurd rfl (hother entries)
      | _ => simp [sectionEntries, hfield, hv]
    rw [ofCatalog, hentries]
    rfl

/-- An entry as it is shown. -/
def shownEntry (e : Value × Value) : String × String := (e.1.shown, e.2.shown)

theorem shownEntries_of_writable {entries : List (Value × Value)}
    (h : Value.entriesWritable entries = true) :
    shownEntries entries = .ok (entries.map shownEntry) := by
  induction entries with
  | nil => rfl
  | cons e rest ih =>
    obtain ⟨k, v⟩ := e
    simp only [Value.entriesWritable, Bool.and_eq_true] at h
    obtain ⟨⟨hk, hv⟩, hrest⟩ := h
    rw [shownEntries, (Value.display_eq_ok_iff k _).2 ⟨hk, rfl⟩,
      (Value.display_eq_ok_iff v _).2 ⟨hv, rfl⟩, ih hrest]
    rfl

theorem ofCatalog_of_hasSection {c : Value} {entries : List (Value × Value)}
    (h : HasSection c entries) (hc : c.isWritable = true) :
    ofCatalog c = .ok (catalog (entries.map shownEntry)) := by
  have hall : ∀ {es : List (Value × Value)}, sectionEntries es = .ok entries →
      Value.entriesWritable entries = true →
      ofCatalog (.dict es) = .ok (catalog (entries.map shownEntry)) := by
    intro es hentries hwritable
    rw [ofCatalog, hentries]
    show (shownEntries entries).map catalog = _
    rw [shownEntries_of_writable hwritable]
    rfl
  cases h with
  | missing hfield => exact hall (by rw [sectionEntries, hfield]) rfl
  | falsy hfield hv => exact hall (by simp [sectionEntries, hfield, hv]) rfl
  | @given es entries hfield hne =>
    have hsome : (Value.dict entries).truthy = true := by simpa [Value.truthy] using hne
    refine hall (by simp [sectionEntries, hfield, hsome]) ?_
    exact Value.isWritable_of_field? (v := .dict es) hfield hc

/-! ## Entries -/

/-- The last of the texts under a key is found, whatever stands in front of it. -/
theorem lastText_append_cons {key text : String} {before after : List (String × String)}
    (h : ∀ e ∈ after, e.1 ≠ key) : lastText key (before ++ (key, text) :: after) = some text := by
  have hafter : after.reverse.find? (fun e => e.1 = key) = none :=
    List.find?_eq_none.2 fun e he => by simpa using h e (List.mem_reverse.1 he)
  rw [lastText, List.reverse_append, List.reverse_cons, List.append_assoc, List.find?_append,
    hafter]
  simp

theorem lastText_eq_none {key : String} {texts : List (String × String)}
    (h : ∀ e ∈ texts, e.1 ≠ key) : lastText key texts = none := by
  rw [lastText, Option.map_eq_none_iff, List.find?_eq_none]
  exact fun e he => by simpa using h e (List.mem_reverse.1 he)

variable {entries before after : List (Value × Value)} {key : String}

theorem get_of_last {k v : Value} (hk : k.shown = key) (hafter : ∀ e ∈ after, e.1.shown ≠ key) :
    (catalog ((before ++ (k, v) :: after).map shownEntry)).get key = pure (.text v.shown) := by
  refine get_catalog_of_some ?_
  rw [List.map_append, List.map_cons, shownEntry, hk]
  exact lastText_append_cons (List.forall_mem_map.2 hafter)

theorem get_of_none (h : ∀ e ∈ entries, e.1.shown ≠ key) :
    (catalog (entries.map shownEntry)).get key
      = ⟨(fallback key).map .text, [missingRecord key]⟩ :=
  get_catalog_of_none (lastText_eq_none (List.forall_mem_map.2 h))

/-! ## Built-in texts -/

/-- A key has a built-in text, or it is a fault. -/
theorem fallback_cases (key : String) :
    (∃ text, (key, text) ∈ builtIn ∧ fallback key = .ok text)
      ∨ key ∉ builtIn.map Prod.fst ∧ fallback key = .error (.unknownMessage key) := by
  cases hfind : builtIn.find? fun e => e.1 = key with
  | some e =>
    obtain rfl : e.1 = key := by simpa using List.find?_some hfind
    exact .inl ⟨e.2, List.mem_of_find?_eq_some hfind, by rw [fallback, hfind]⟩
  | none =>
    refine .inr ⟨fun hmem => ?_, by rw [fallback, hfind]⟩
    obtain ⟨e, he, rfl⟩ := List.mem_map.1 hmem
    exact absurd (List.find?_eq_none.1 hfind e he) (by simp)

/-! ## Looking up -/

/-- A catalog that can be written is refused exactly if it is malformed, and any other one
has a section for warnings. What is then found under a key is the value of the last entry
whose key is shown as that text. If there is none, there is one warning in the log, and
the built-in text is found, or a fault if the key has none. Under the key of reports there
is always a text, and no report made with it is a fault. -/
theorem ofCatalog_lookup (c : Value) (hc : c.isWritable = true) :
    (∀ f, ofCatalog c = .error f ↔ IsMalformed c f)
    ∧ ((∀ f, ¬ IsMalformed c f) → ∃ entries, HasSection c entries)
    ∧ ∀ entries, HasSection c entries → ∃ m, ofCatalog c = .ok m
      ∧ (∀ key before k v after, entries = before ++ (k, v) :: after → k.shown = key →
          (∀ e ∈ after, e.1.shown ≠ key) → m.get key = pure (.text v.shown))
      ∧ (∀ key, (∀ e ∈ entries, e.1.shown ≠ key) →
          (m.get key).log = [missingRecord key]
          ∧ ((∃ text, (key, text) ∈ builtIn ∧ (m.get key).result = .ok (.text text))
            ∨ key ∉ builtIn.map Prod.fst ∧ (m.get key).result = .error (.unknownMessage key)))
      ∧ ∃ front, (m.get reportKey).result = .ok (.text front)
        ∧ ∀ o, (m.report o).result = .ok
          (if o.isOk then .ok else .error (front ++ labelSeparator.intercalate o.labels)) := by
  refine ⟨fun f => ⟨fun h => ?_, ofCatalog_of_isMalformed⟩, fun hnone => ?_,
    fun entries hentries => ?_⟩
  · rcases isMalformed_or_hasSection c with ⟨f', hf'⟩ | ⟨entries, hentries⟩
    · rw [ofCatalog_of_isMalformed hf'] at h
      cases h
      exact hf'
    · rw [ofCatalog_of_hasSection hentries hc] at h
      cases h
  · exact (isMalformed_or_hasSection c).resolve_left fun ⟨f, hf⟩ => hnone f hf
  · refine ⟨_, ofCatalog_of_hasSection hentries hc, ?_, fun key hnone => ?_, ?_⟩
    · rintro key before k v after rfl hk hafter
      exact get_of_last hk hafter
    · rw [get_of_none hnone]
      refine ⟨rfl, ?_⟩
      rcases fallback_cases key with ⟨text, hmem, htext⟩ | ⟨hother, hfault⟩
      · exact .inl ⟨text, hmem, by rw [htext]; rfl⟩
      · exact .inr ⟨hother, by rw [hfault]; rfl⟩
    · obtain ⟨front, hfront⟩ := get_reportKey_catalog (entries.map shownEntry)
      exact ⟨front, hfront, result_report hfront⟩

/-- Two keys of different kinds that are shown alike, and a value that is no text. -/
def alikeEntries : List (Value × Value) :=
  [(.bool true, .text "yes"), (.text "True", .list [.null])]

/-- The later of the two entries counts, and a key that is missing is logged. -/
theorem ofCatalog_lookup_alike :
    ∃ m, ofCatalog (.dict [(.text warningsSection, .dict alikeEntries)]) = .ok m
      ∧ m.get "True" = pure (.text "[None]")
      ∧ (m.get reportKey).log = [missingRecord reportKey]
      ∧ ofCatalog (.list []) = .error (.catalogNotMapping "list") := by
  obtain ⟨-, -, hlookup⟩ :=
    ofCatalog_lookup (.dict [(.text warningsSection, .dict alikeEntries)]) rfl
  obtain ⟨m, hm, hlast, hnone, -⟩ := hlookup alikeEntries (.given rfl (by simp [alikeEntries]))
  have hlog := (hnone reportKey (by decide)).1
  have hrefused := ((ofCatalog_lookup (.list []) rfl).1 _).2 (.whole (by simp))
  exact ⟨m, hm, hlast "True" [(.bool true, .text "yes")] (.text "True") (.list [.null]) [] rfl rfl
    (by simp), hlog, hrefused⟩

end FieldCheck.Messages
