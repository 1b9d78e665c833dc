/-
FieldCheck.Proofs.Rpc.Parameters — what the parameters of a method have to be.

The schema of a method is a list of rules, and `Method.Suits` says in plain terms
what they come to: which members there are, and of what shape. The rule for a
property says nothing if the property is missing, so it is only together with the
rule that requires the property that there is something of the right shape
(`holds_property_iff`).

Parameters that suit a method give it descriptors that are texts and groups of
texts. That is all that is needed for no method to fail because of the kind of a
value (`Service.IsReady`, and one line for each method in `failsOnly_run`).
-/
import FieldCheck.Proofs.Rpc.Classification
import FieldCheck.Proofs.Service.FailedReload
import FieldCheck.Proofs.Service.Faults

namespace FieldCheck

open FieldCheck.Action

/-! ## Shapes -/

namespace Json

/-- A text. -/
def IsText (j : Json) : Prop := ∃ s, j = text s

/-- An array of texts. -/
def IsTexts (j : Json) : Prop := ∃ items, j = array items ∧ ∀ x ∈ items, x.IsText

/-- An array of texts and arrays of texts. -/
def IsDescriptors (j : Json) : Prop :=
  ∃ items, j = array items ∧ ∀ x ∈ items, x.IsText ∨ x.IsTexts

/-- The members have one with a name, and its value has a property. -/
def Has (name : String) (P : Json → Prop) (members : List (String × Json)) : Prop :=
  ∃ v, member name members = some v ∧ P v

theorem IsTexts.exists_texts {j : Json} (h : j.IsTexts) :
    ∃ ss : List String, j.toValue = .list (ss.map .text) := by
  obtain ⟨items, rfl, hitems⟩ := h
  suffices hss : ∃ ss : List String, items.map toValue = ss.map .text by
    obtain ⟨ss, hss⟩ := hss
    exact ⟨ss, by rw [toValue, toValues_eq_map, hss]⟩
  induction items with
  | nil => exact ⟨[], rfl⟩
  | cons x rest ih =>
    obtain ⟨s, rfl⟩ := hitems x (by simp)
    obtain ⟨ss, hss⟩ := ih fun y hy => hitems y (List.mem_cons_of_mem _ hy)
    exact ⟨s :: ss, by rw [List.map_cons, List.map_cons, hss]; rfl⟩

theorem exists_textItem {j : Json} (h : j.IsText ∨ j.IsTexts) :
    ∃ i : TextItem, j.toValue = i.toValue := by
  rcases h with ⟨s, rfl⟩ | h
  · exact ⟨.single s, rfl⟩
  · obtain ⟨ss, hss⟩ := h.exists_texts
    exact ⟨.list ss, hss⟩

theorem IsDescriptors.exists_items {j : Json} (h : j.IsDescriptors) :
    ∃ items : List TextItem, j.toValue = .list (items.map TextItem.toValue) := by
  obtain ⟨xs, rfl, hxs⟩ := h
  suffices hitems : ∃ items : List TextItem, xs.map toValue = items.map TextItem.toValue by
    obtain ⟨items, hitems⟩ := hitems
    exact ⟨items, by rw [toValue, toValues_eq_map, hitems]⟩
  induction xs with
  | nil => exact ⟨[], rfl⟩
  | cons x rest ih =>
    obtain ⟨i, hi⟩ := exists_textItem (hxs x (by simp))
    obtain ⟨items, hitems⟩ := ih fun y hy => hxs y (List.mem_cons_of_mem _ hy)
    exact ⟨i :: items, by rw [List.map_cons, List.map_cons, hitems, hi]⟩

/-! ## Rules -/

theorem kind_text_holds_iff (j : Json) : Kind.text.holds j.toValue = true ↔ j.IsText := by
  cases j <;> simp [toValue, Kind.holds, IsText]

theorem kind_array_holds_iff (j : Json) :
    Kind.array.holds j.toValue = true ↔ ∃ xs, j = array xs := by
  cases j <;> simp [toValue, Kind.holds]

/-- An array keeps rules for its items if each item keeps them. -/
theorem holds_array_iff (rules : List Rule) (j : Json) :
    Schema.Holds [.kind .array, .items rules] j.toValue
      ↔ ∃ xs, j = array xs ∧ ∀ x ∈ xs, Schema.Holds rules x.toValue := by
  rw [Schema.Holds, Schema.Holds, Schema.Holds, Rule.Holds, kind_array_holds_iff, Rule.Holds]
  constructor
  · rintro ⟨⟨xs, rfl⟩, hitems, -⟩
    refine ⟨xs, rfl, fun x hx => hitems _ rfl _ ?_⟩
    rw [toValues_eq_map]
    exact List.mem_map_of_mem hx
  · rintro ⟨xs, rfl, hitems⟩
    refine ⟨⟨xs, rfl⟩, ?_, trivial⟩
    rintro _ ⟨⟩ v hv
    rw [toValues_eq_map] at hv
    obtain ⟨x, hx, rfl⟩ := List.mem_map.1 hv
    exact hitems x hx

theorem holds_text_iff (j : Json) : Schema.Holds [.kind .text] j.toValue ↔ j.IsText := by
  rw [Schema.Holds, Schema.Holds, Rule.Holds, kind_text_holds_iff, and_true]

theorem holds_texts_iff (j : Json) :
    Schema.Holds [.kind .array, .items [.kind .text]] j.toValue ↔ j.IsTexts := by
  simp only [holds_array_iff, holds_text_iff, IsTexts]

theorem holds_descriptors_iff (j : Json) :
    Schema.Holds Rpc.Method.descriptorsSchema j.toValue ↔ j.IsDescriptors := by
  rw [Rpc.Method.descriptorsSchema, holds_array_iff, IsDescriptors]
  refine exists_congr fun xs => and_congr_right fun _ => forall₂_congr fun x _ => ?_
  rw [Schema.Holds, Schema.Holds, Rule.Holds, and_true, holds_text_iff, holds_texts_iff]

theorem holds_required_iff (name : String) (members : List (String × Json)) :
    (Rule.required name).Holds (.dict (toEntries members)) ↔ Has name (fun _ => True) members := by
  simp only [Rule.Holds, Value.dict.injEq, forall_eq', field_toEntries, Option.isSome_map, Has,
    and_true, ← Option.isSome_iff_exists]

/-- A member that is required and has to keep some rules is there and keeps them. -/
theorem holds_property_iff {rules : List Rule} {P : Json → Prop}
    (h : ∀ j, Schema.Holds rules j.toValue ↔ P j) (name : String)
    (members : List (String × Json)) :
    ((Rule.property name rules).Holds (.dict (toEntries members))
      ∧ (Rule.required name).Holds (.dict (toEntries members))) ↔ Has name P members := by
  rw [holds_required_iff, Rule.Holds, Value.field?, field_toEntries]
  constructor
  · rintro ⟨hproperty, v, hv, -⟩
    exact ⟨v, hv, (h v).1 (hproperty _ (by rw [hv]; rfl))⟩
  · rintro ⟨v, hv, hP⟩
    refine ⟨?_, v, hv, trivial⟩
    rw [hv]
    rintro _ ⟨⟩
    exact (h v).2 hP

end Json

namespace Rpc.Method

open Json

/-! ## Parameters that suit a method -/

/-- What the parameters of a method have to be. -/
def Suits (members : List (String × Json)) : Method → Prop
  | check | require => Has "descriptors" IsDescriptors members ∧ Has "data" (fun _ => True) members
  | discover => Has "descriptors" IsDescriptors members
  | batch => Has "records" (fun j => ∃ xs, j = .array xs) members
    ∧ Has "descriptors" IsDescriptors members ∧ Has "id_fields" IsTexts members
  | batchFile => Has "file_uri" (fun j => ∃ s, s ≠ "" ∧ j = .text s) members
    ∧ Has "descriptors" IsDescriptors members ∧ Has "id_fields" IsTexts members
  | reload | age => True

theorem holds_records_iff (j : Json) :
    Schema.Holds [.kind .array] j.toValue ↔ ∃ xs, j = .array xs := by
  rw [Schema.Holds, Schema.Holds, Rule.Holds, kind_array_holds_iff, and_true]

theorem holds_location_iff (j : Json) :
    Schema.Holds [.kind .text, .nonEmpty] j.toValue ↔ ∃ s, s ≠ "" ∧ j = .text s := by
  rw [Schema.Holds, Schema.Holds, Schema.Holds, Rule.Holds, Rule.Holds, kind_text_holds_iff,
    and_true]
  constructor
  · rintro ⟨⟨s, rfl⟩, hne⟩
    exact ⟨s, by simpa [toValue] using hne, rfl⟩
  · rintro ⟨s, hne, rfl⟩
    exact ⟨⟨s, rfl⟩, by simpa [toValue] using hne⟩

theorem holds_schema_iff (m : Method) (members : List (String × Json)) :
    Schema.Holds m.schema (.dict (toEntries members)) ↔ m.Suits members := by
  have hdescriptors := holds_property_iff holds_descriptors_iff "descriptors" members
  have hfields := holds_property_iff holds_texts_iff "id_fields" members
  have hrecords := holds_property_iff holds_records_iff "records" members
  have hlocation := holds_property_iff holds_location_iff "file_uri" members
  have hdata := holds_required_iff "data" members
  -- The rules for properties come first; each is paired with the one that requires the property.
  cases m with
  | check | require =>
    rw [Suits, ← hdescriptors, ← hdata]
    constructor
    · rintro ⟨-, hproperty, hrequired, hdata, -⟩
      exact ⟨⟨hproperty, hrequired⟩, hdata⟩
    · rintro ⟨⟨hproperty, hrequired⟩, hdata⟩
      exact ⟨rfl, hproperty, hrequired, hdata, trivial⟩
  | discover =>
    rw [Suits, ← hdescriptors]
    constructor
    · rintro ⟨-, hproperty, hrequired, -⟩
      exact ⟨hproperty, hrequired⟩
    · rintro ⟨hproperty, hrequired⟩
      exact ⟨rfl, hproperty, hrequired, trivial⟩
  | batch =>
    rw [Suits, ← hdescriptors, ← hfields, ← hrecords]
    constructor
    · rintro ⟨-, hp₁, hp₂, hp₃, hr₁, hr₂, hr₃, -⟩
      exact ⟨⟨hp₁, hr₁⟩, ⟨hp₂, hr₂⟩, hp₃, hr₃⟩
    · rintro ⟨⟨hp₁, hr₁⟩, ⟨hp₂, hr₂⟩, hp₃, hr₃⟩
      exact ⟨rfl, hp₁, hp₂, hp₃, hr₁, hr₂, hr₃, trivial⟩
  | batchFile =>
    rw [Suits, ← hdescriptors, ← hfields, ← hlocation]
    constructor
    · rintro ⟨-, hp₁, hp₂, hp₃, hr₁, hr₂, hr₃, -⟩
      exact ⟨⟨hp₁, hr₁⟩, ⟨hp₂, hr₂⟩, hp₃, hr₃⟩
    · rintro ⟨⟨hp₁, hr₁⟩, ⟨hp₂, hr₂⟩, hp₃, hr₃⟩
      exact ⟨rfl, hp₁, hp₂, hp₃, hr₁, hr₂, hr₃, trivial⟩
  | reload | age => exact ⟨fun _ => trivial, fun _ => trivial⟩

/-! ## Methods that are run -/

theorem param_of_has {P : Json → Prop} {name : String} {members : List (String × Json)}
    (h : Has name P members) :
    ∃ j, P j ∧ param name (.dict (toEntries members)) = j.toValue := by
  obtain ⟨j, hj, hP⟩ := h
  exact ⟨j, hP, by rw [param, Value.field?, field_toEntries, hj]; rfl⟩

theorem exists_param_descriptors {members : List (String × Json)}
    (h : Has "descriptors" IsDescriptors members) : ∃ items : List TextItem,
      param descriptorsKey (.dict (toEntries members)) = .list (items.map TextItem.toValue) := by
  obtain ⟨j, hj, hparam⟩ := param_of_has h
  obtain ⟨items, hitems⟩ := hj.exists_items
  exact ⟨items, hparam.trans hitems⟩

theorem exists_param_fields {members : List (String × Json)} (h : Has "id_fields" IsTexts members) :
    ∃ ss : List String, param idFieldsKey (.dict (toEntries members)) = .list (ss.map .text) := by
  obtain ⟨j, hj, hparam⟩ := param_of_has h
  obtain ⟨ss, hss⟩ := hj.exists_texts
  exact ⟨ss, hparam.trans hss⟩

theorem exists_param_records {members : List (String × Json)}
    (h : Has "records" (fun j => ∃ xs, j = .array xs) members) :
    ∃ vs, param recordsKey (.dict (toEntries members)) = .list vs := by
  obtain ⟨_, ⟨xs, rfl⟩, hparam⟩ := param_of_has h
  exact ⟨toValues xs, hparam⟩

theorem exists_param_location {members : List (String × Json)}
    (h : Has "file_uri" (fun j => ∃ s, s ≠ "" ∧ j = .text s) members) :
    ∃ uri, param fileUriKey (.dict (toEntries members)) = .text uri := by
  obtain ⟨_, ⟨s, -, rfl⟩, hparam⟩ := param_of_has h
  exact ⟨s, hparam⟩

/-- A service that is ready runs a method with parameters that suit it without
fail, unless it is kept from that by its surroundings. -/
theorem failsOnly_run {m : Method} {members : List (String × Json)} (h : m.Suits members) :
    FailsOnly Service.IsReady Fault.IsExternal (m.run (.dict (toEntries members))) := by
  cases m with
  | check =>
    obtain ⟨items, hitems⟩ := exists_param_descriptors h.1
    rw [run, hitems]
    exact (Service.failsOnly_check (lists_list items) _).bind fun _ => failsOnly_pure _
  | require =>
    obtain ⟨items, hitems⟩ := exists_param_descriptors h.1
    rw [run, hitems]
    exact (Service.failsOnly_check (lists_list items) _).bind fun _ =>
      (Service.failsOnly_report _).bind fun _ => failsOnly_pure _
  | discover =>
    obtain ⟨items, hitems⟩ := exists_param_descriptors h
    rw [run, hitems]
    exact (Service.failsOnly_discover (lists_list items)).bind fun _ => failsOnly_pure _
  | batch =>
    obtain ⟨hrecords, hdescriptors, hfields⟩ := h
    obtain ⟨items, hitems⟩ := exists_param_descriptors hdescriptors
    obtain ⟨ss, hss⟩ := exists_param_fields hfields
    obtain ⟨vs, hvs⟩ := exists_param_records hrecords
    rw [run, hitems, hss, hvs]
    exact (Service.failsOnly_batch (lists_list items) vs ss).bind fun _ => failsOnly_pure _
  | batchFile =>
    obtain ⟨hlocation, hdescriptors, hfields⟩ := h
    obtain ⟨items, hitems⟩ := exists_param_descriptors hdescriptors
    obtain ⟨ss, hss⟩ := exists_param_fields hfields
    obtain ⟨uri, huri⟩ := exists_param_location hlocation
    rw [run, hitems, hss, huri]
    exact (Service.failsOnly_batchFile (lists_list items) uri ss).bind fun _ => failsOnly_pure _
  | reload => exact Service.failsOnly_reload_ready.bind fun _ => failsOnly_pure _
  | age => exact .state_bind fun s _ => failsOnly_world.bind fun w => failsOnly_pure _

/-- The schema of a method lets exactly the parameters pass that suit it. A
method with such parameters is run on descriptors that are texts and groups of
texts, and it does not fail because of the kind of a value, whatever the service
went through before and whatever is in the world. A service with messages of its
own needs a text in them to put in front of a report. A server is never given any. -/
theorem schema_guards_run (m : Method) (members : List (String × Json)) :
    (m.schema.complaints "params" (.dict (toEntries members)) = .ok none ↔ m.Suits members)
      ∧ (m.Suits members →
        (m ≠ .reload → m ≠ .age → ∃ items : List TextItem,
          param descriptorsKey (.dict (toEntries members)) = .list (items.map TextItem.toValue))
        ∧ ∀ s : Service, s.Reachable →
          (∀ given ∈ s.injected, ∃ t, (given.get Messages.reportKey).result = .ok (.text t)) →
          ∀ w f, (m.run (.dict (toEntries members)) s w).1 = .error f →
            f.isAboutKind = false) := by
  refine ⟨?_, fun hsuits => ⟨fun hreload hage => ?_, fun s hs hgiven w f hf => ?_⟩⟩
  · rw [Schema.complaints_eq_none_iff, Schema.accepts_iff, holds_schema_iff]
  · cases m with
    | reload => exact absurd rfl hreload
    | age => exact absurd rfl hage
    | discover => exact exists_param_descriptors hsuits
    | check | require => exact exists_param_descriptors hsuits.1
    | batch | batchFile => exact exists_param_descriptors hsuits.2.1
  · exact ((failsOnly_run hsuits s w (hs.isReady hgiven)).2 f hf).kind

/-- The parameters of a check, with a text and a group among the descriptors. -/
def checkParams : List (String × Json) :=
  [("descriptors", .array [.text "name", .array [.text "email", .text "*phone"]]), ("data", .null)]

theorem suits_checkParams : Method.check.Suits checkParams := by
  have hgroup : IsTexts (.array [.text "email", .text "*phone"]) :=
    ⟨_, rfl, List.forall_mem_cons.2 ⟨⟨_, rfl⟩, List.forall_mem_singleton.2 ⟨_, rfl⟩⟩⟩
  have hdescriptors :
      IsDescriptors (.array [.text "name", .array [.text "email", .text "*phone"]]) :=
    ⟨_, rfl, List.forall_mem_cons.2 ⟨.inl ⟨_, rfl⟩, List.forall_mem_singleton.2 (.inr hgroup)⟩⟩
  exact ⟨⟨_, rfl, hdescriptors⟩, _, rfl, trivial⟩

open Service (shelved shelf later) in
/-- The schema lets the parameters pass. The check comes upon a catalog that is a list and
fails, but not because of the kind of one of its parameters. -/
theorem schema_guards_run_shelved : Method.check.Suits checkParams ∧ shelved.Reachable
    ∧ (∀ given ∈ shelved.injected, ∃ t, (given.get Messages.reportKey).result = .ok (.text t))
    ∧ Method.check.schema.complaints "params" (.dict (toEntries checkParams)) = .ok none
    ∧ (∃ items : List TextItem,
      param descriptorsKey (.dict (toEntries checkParams)) = .list (items.map TextItem.toValue))
    ∧ (Method.check.run (.dict (toEntries checkParams)) shelved (shelf (.list [.null]) later)).1
      = .error (.catalogNotMapping "list")
    ∧ (Fault.catalogNotMapping "list").isAboutKind = false := by
  have hgiven : ∀ given ∈ shelved.injected,
      ∃ t, (given.get Messages.reportKey).result = .ok (.text t) := by
    rintro given ⟨⟩
  have hreload : ∃ s₁ w₁, Service.reload (shelved.looked later) Service.staleShelf
      = (.error (.catalogNotMapping "list"), s₁, w₁) := ⟨_, _, rfl⟩
  obtain ⟨s₁, w₁, hreload⟩ := hreload
  have hlook := (Service.look_of_findsStale Service.findsStale_shelved).trans hreload
  have hrun : (Method.check.run (.dict (toEntries checkParams)) shelved
      (shelf (.list [.null]) later)).1 = .error (.catalogNotMapping "list") := by
    rw [run, bind_of_error _ (by rw [Service.check, bind_of_error _ hlook])]
  obtain ⟨hschema, hguarded⟩ := schema_guards_run .check checkParams
  obtain ⟨hitems, hfaults⟩ := hguarded suits_checkParams
  exact ⟨suits_checkParams, Service.reachable_shelved, hgiven, hschema.2 suits_checkParams,
    hitems (by decide) (by decide), hrun,
    hfaults shelved Service.reachable_shelved hgiven _ _ hrun⟩

end Rpc.Method

end FieldCheck
