/-
FieldCheck.Proofs.Files — following plain paths.

A plain path starts at the root and has only names as steps (`FilePath.IsName`):
none is empty, stays where it is, or leads back. So it is `rooted place`, and
there is one thing that decides where it leads, namely what stands on the way.
If that is folders or nothing (`IsClear`), the path leads to its place or
nowhere. If it is folders all the way (`IsMade`), it leads to its place.

Making folders on the way to a place puts one wherever nothing stood and changes
nothing else (`entryAt_withFolders`), so a clear way is a made one afterwards.

What a content stands for does not depend on whether it is read as a text or from
a file (`Content.inFile_eq_ok_iff`). Only the faults are worded in different ways.
-/
import FieldCheck.Files

namespace FieldCheck

/-! ## Documents -/

namespace Content

/-- The content stands for a document. -/
def IsReadable (content : Content) : Prop := ∃ document, content.asDocument = .ok document

theorem ofChars_eq_ok_iff (source : String) (index : Nat) (cs : List Char) (v : Value) :
    ofChars source index cs = .ok v ↔ (∀ c ∈ cs, isDocumentChar c = true) ∧ v = .null := by
  induction cs generalizing index with
  | nil =>
    rw [ofChars, Except.ok.injEq]
    exact ⟨fun h => ⟨nofun, h.symm⟩, fun h => h.2.symm⟩
  | cons c cs ih =>
    rw [ofChars, List.forall_mem_cons]
    split
    · rename_i hc
      simp [ih, hc]
    · rename_i hc
      simp [hc]

theorem inFile_eq_ok_iff (path : String) (content : Content) (v : Value) :
    content.inFile path = .ok v ↔ content.asDocument = .ok v := by
  cases content with
  | document u => rfl
  | bytes bs =>
    rw [inFile, asDocument, documentFrom, documentFrom]
    cases Text.Utf8.decodeBlocks blockSize bs with
    | error f => simp
    | ok cs =>
      have hunified := Text.forall_mem_unifiedOnto_iff (P := fun c => isDocumentChar c = true)
        (by decide) (by decide) [] cs
      simp only [ofChars_eq_ok_iff, Text.unified, hunified, id]
      simp

end Content

namespace FilePath

/-! ## Plain paths -/

/-- A step of a path that is the name of something. -/
structure IsName (s : String) : Prop where
  ne_empty : s ≠ ""
  ne_here : s ≠ "."
  ne_back : s ≠ ".."
  slash_not_mem : '/' ∉ s.toList
  null_not_mem : '\x00' ∉ s.toList
  fits : s.utf8ByteSize ≤ Files.nameLimit

variable {place : List String} {name : String}

theorem toList_rooted (place : List String) :
    (rooted place).toList = '/' :: ['/'].intercalate (place.map String.toList) := by
  rw [rooted, String.toList_append, String.toList_intercalate]
  rfl

theorem isEmpty_rooted (place : List String) : (rooted place).isEmpty = false := by
  rw [Bool.eq_false_iff, ne_eq, String.isEmpty_iff]
  intro hempty
  have hlist := congrArg String.toList hempty
  rw [toList_rooted] at hlist
  simp at hlist

theorem join_rooted (folder : String) (place : List String) :
    join folder (rooted place) = rooted place := by
  have habsolute : isAbsolute (rooted place) = true := by
    rw [isAbsolute, toList_rooted]
    rfl
  rw [join, habsolute, Bool.true_or, if_pos rfl]

theorem steps_rooted (hne : place ≠ []) (h : ∀ s ∈ place, IsName s) :
    steps (rooted place) = "" :: place := by
  have hcut : (['/'].intercalate (place.map String.toList)).splitOn '/'
      = place.map String.toList := by
    refine List.splitOn_intercalate '/' ?_ (by simpa using hne)
    intro cs hcs
    obtain ⟨s, hs, rfl⟩ := List.mem_map.1 hcs
    exact (h s hs).slash_not_mem
  rw [steps, toList_rooted, List.splitOn_cons_eq_if_modifyHead, if_pos (by simp), hcut]
  simp

theorem collapsed_steps_rooted (hne : place ≠ []) (h : ∀ s ∈ place, IsName s) :
    collapsed (steps (rooted place)) = place := by
  have hfold : ∀ (ss done : List String), (∀ s ∈ ss, IsName s) →
      ss.foldl addStep done = ss.reverse ++ done := by
    intro ss
    induction ss with
    | nil => simp
    | cons s rest ih =>
      intro done hss
      have hs := hss s (by simp)
      have hstep : addStep done s = s :: done := by
        simp [addStep, hs.ne_empty, hs.ne_here, hs.ne_back]
      rw [List.foldl_cons, hstep, ih _ fun s' hs' => hss s' (List.mem_cons_of_mem s hs')]
      simp
  rw [steps_rooted hne h, collapsed, List.foldl_cons]
  have hempty : addStep [] "" = [] := by simp [addStep]
  rw [hempty, hfold place [] h]
  simp

theorem rooted_concat (hne : place ≠ []) (name : String) :
    rooted (place ++ [name]) = rooted place ++ "/" ++ name := by
  have hconcat : ∀ (s : String) (ss : List String),
      "/".intercalate ((s :: ss) ++ [name]) = "/".intercalate (s :: ss) ++ "/" ++ name := by
    intro s ss
    induction ss generalizing s with
    | nil => simp [String.intercalate_cons_cons]
    | cons s' ss ih =>
      have hrest := ih s'
      simp only [List.cons_append, String.intercalate_cons_cons] at hrest ⊢
      rw [hrest]
      simp [String.append_assoc]
  obtain ⟨s, ss, rfl⟩ := List.exists_cons_of_ne_nil hne
  rw [rooted, hconcat, rooted]
  simp [String.append_assoc]

/-- A path that ends in a name does not end in a slash. -/
theorem getLast?_rooted (h : ∀ s ∈ place, IsName s) (hne : place ≠ []) :
    (rooted place).toList.getLast? ≠ some '/' := by
  obtain ⟨front, last, rfl⟩ := (List.eq_nil_or_concat place).resolve_left hne
  have hlast : IsName last := h last (by simp)
  have hend : ∃ cs, (rooted (front ++ [last])).toList = cs ++ last.toList := by
    by_cases hfront : front = []
    · subst hfront
      exact ⟨['/'], by simp [toList_rooted]⟩
    · rw [rooted_concat hfront, String.toList_append]
      exact ⟨_, rfl⟩
  have hchars : last.toList ≠ [] := by simpa using hlast.ne_empty
  obtain ⟨cs, hcs⟩ := hend
  rw [List.concat_eq_append, hcs, List.getLast?_append, List.getLast?_eq_some_getLast hchars]
  intro hslash
  have hmem := List.getLast_mem hchars
  simp only [Option.some_or, Option.some.injEq] at hslash
  rw [hslash] at hmem
  exact hlast.slash_not_mem hmem

theorem join_name (hne : place ≠ []) (h : ∀ s ∈ place, IsName s) (hname : IsName name) :
    join (rooted place) name = rooted (place ++ [name]) := by
  have hrelative : isAbsolute name = false := by
    rw [isAbsolute, beq_eq_false_iff_ne]
    intro hhead
    exact hname.slash_not_mem (List.mem_of_mem_head? hhead)
  have hend : ((rooted place).toList.getLast? == some '/') = false := by
    rw [beq_eq_false_iff_ne]
    exact getLast?_rooted h hne
  rw [join, hrelative, isEmpty_rooted, hend, rooted_concat hne]
  rfl

theorem null_not_mem_rooted (h : ∀ s ∈ place, IsName s) : '\x00' ∉ (rooted place).toList := by
  have hparts : ∀ (parts : List (List Char)) (c : Char), c ∈ ['/'].intercalate parts →
      c = '/' ∨ ∃ part ∈ parts, c ∈ part := by
    intro parts c hc
    induction parts with
    | nil => simp at hc
    | cons part rest ih =>
      cases rest with
      | nil => exact .inr ⟨part, by simp, by simpa using hc⟩
      | cons next rest =>
        rw [List.intercalate_cons_cons, List.mem_append, List.mem_append, List.mem_singleton] at hc
        rcases hc with (hc | hc) | hc
        · exact .inr ⟨part, by simp, hc⟩
        · exact .inl hc
        · rcases ih hc with hslash | ⟨part', hpart', hc'⟩
          · exact .inl hslash
          · exact .inr ⟨part', List.mem_cons_of_mem _ hpart', hc'⟩
  intro hnull
  rw [toList_rooted, List.mem_cons] at hnull
  rcases hparts _ _ (hnull.resolve_left (by decide)) with hslash | ⟨part, hpart, hc⟩
  · exact absurd hslash (by decide)
  · obtain ⟨s, hs, rfl⟩ := List.mem_map.1 hpart
    exact (h s hs).null_not_mem hc

end FilePath

namespace Files

open FilePath (IsName rooted)

variable {t : Files} {folder : List String} {name : String}

/-! ## Ways -/

/-- On the way to a folder, and in its place, stand folders or nothing. -/
def IsClear (t : Files) (folder : List String) : Prop :=
  ∀ p, p <+: folder → ∀ e, t.entryAt p = some e → ∃ time, e = .folder time

/-- On the way to a folder, and in its place, stand folders. -/
def IsMade (t : Files) (folder : List String) : Prop :=
  ∀ p, p <+: folder → ∃ time, t.entryAt p = some (.folder time)

theorem walk_append (t : Files) (place front back : List String) :
    t.walk place (front ++ back) = (match t.walk place front with
      | .ok p => t.walk p back
      | .error o => .error o) := by
  induction front generalizing place with
  | nil => simp [walk]
  | cons step rest ih =>
    rw [List.cons_append, walk, walk]
    split
    · rfl
    · rfl
    · split
      · exact ih place
      split
      · exact ih place.dropLast
      split
      · rfl
      · exact ih (place ++ [step])

/-- A name leads from a folder to the place of that name in it. -/
theorem walk_name {place : List String} {time : Double} (hname : IsName name)
    (h : t.entryAt place = some (.folder time)) : t.walk place [name] = .ok (place ++ [name]) := by
  have hfits : ¬ nameLimit < name.utf8ByteSize := Nat.not_lt.2 hname.fits
  simp [walk, h, hname.ne_empty, hname.ne_here, hname.ne_back, hfits]

theorem walk_of_isClear (front : List String) {rest : List String} (hrest : ∀ s ∈ rest, IsName s)
    (h : IsClear t (front ++ rest)) :
    t.walk front rest = .ok (front ++ rest) ∨ t.walk front rest = .error .missing := by
  induction rest generalizing front with
  | nil => exact .inl (by simp [walk])
  | cons step rest ih =>
    cases hentry : t.entryAt front with
    | none => exact .inr (by simp [walk, hentry])
    | some e =>
      obtain ⟨time, rfl⟩ := h front (List.prefix_append _ _) e hentry
      have hnext := ih (front ++ [step]) (fun s hs => hrest s (List.mem_cons_of_mem _ hs))
        (by simpa using h)
      have hstep : step :: rest = [step] ++ rest := rfl
      rw [hstep, walk_append, walk_name (hrest step (by simp)) hentry]
      simpa using hnext

theorem walk_of_isMade (front : List String) {rest : List String} (hrest : ∀ s ∈ rest, IsName s)
    (h : IsMade t (front ++ rest)) : t.walk front rest = .ok (front ++ rest) := by
  induction rest generalizing front with
  | nil => simp [walk]
  | cons step rest ih =>
    obtain ⟨time, hentry⟩ := h front (List.prefix_append _ _)
    have hnext := ih (front ++ [step]) (fun s hs => hrest s (List.mem_cons_of_mem _ hs))
      (by simpa using h)
    have hstep : step :: rest = [step] ++ rest := rfl
    rw [hstep, walk_append, walk_name (hrest step (by simp)) hentry]
    simpa using hnext

theorem IsMade.isClear (h : IsMade t folder) : IsClear t folder := by
  intro p hp e he
  obtain ⟨time, hentry⟩ := h p hp
  rw [he, Option.some.injEq] at hentry
  exact ⟨time, hentry⟩

/-! ## Lookups -/

/-- A plain path is followed from the root, wherever one works. -/
theorem lookupFrom_rooted {place : List String} (hne : place ≠ []) (h : ∀ s ∈ place, IsName s)
    (hsize : (rooted place).utf8ByteSize < pathLimit) (t : Files) (work : String) :
    t.lookupFrom work (rooted place) = (match t.walk [] place with
      | .error o => .error o
      | .ok p =>
        match t.entryAt p with
        | some e => .ok e
        | none => .error .missing) := by
  have hroot : t.walk [] ("" :: place) = t.walk [] place := by
    rw [walk]
    simp [entryAt]
  rw [lookupFrom, if_neg (Nat.not_le.2 hsize), FilePath.join_rooted,
    FilePath.steps_rooted hne h]
  cases hwalk : t.walk [] place with
  | error o => simp only [hroot, hwalk]
  | ok p => cases hentry : t.entryAt p <;> simp only [hroot, hwalk, hentry]

/-- The path of a folder leads to the folder or to nothing. -/
theorem lookup_folder (hne : folder ≠ []) (h : ∀ s ∈ folder, IsName s)
    (hsize : (rooted folder).utf8ByteSize < pathLimit) (hclear : IsClear t folder) :
    t.lookup (rooted folder) = .error .missing ∨ ∃ time, t.lookup (rooted folder)
      = .ok (.folder time) := by
  rw [lookup, lookupFrom_rooted hne h hsize]
  rcases walk_of_isClear [] h hclear with hwalk | hwalk
  · rw [hwalk]
    cases hentry : t.entryAt folder with
    | none => exact .inl (by simp [hentry])
    | some e =>
      obtain ⟨time, rfl⟩ := hclear folder (List.prefix_refl _) e hentry
      exact .inr ⟨time, by simp [hentry]⟩
  · rw [hwalk]
    exact .inl rfl

theorem names_concat (h : ∀ s ∈ folder, IsName s) (hname : IsName name) :
    ∀ s ∈ folder ++ [name], IsName s := by
  intro s hs
  rcases List.mem_append.1 hs with hs | hs
  · exact h s hs
  · rw [List.mem_singleton.1 hs]
    exact hname

/-- The path of something that is not in a folder leads to nothing. -/
theorem lookupFrom_of_free (h : ∀ s ∈ folder, IsName s) (hname : IsName name)
    (hsize : (rooted (folder ++ [name])).utf8ByteSize < pathLimit) (hclear : IsClear t folder)
    (hfree : t.entryAt (folder ++ [name]) = none) (work : String) :
    t.lookupFrom work (rooted (folder ++ [name])) = .error .missing := by
  rw [lookupFrom_rooted (by simp) (names_concat h hname) hsize, walk_append]
  rcases walk_of_isClear [] h hclear with hwalk | hwalk
  · rw [hwalk]
    cases hentry : t.entryAt folder with
    | none => simp [walk, hentry]
    | some e =>
      obtain ⟨time, rfl⟩ := hclear folder (List.prefix_refl _) e hentry
      simp [walk_name hname hentry, hfree]
  · rw [hwalk]

/-- The path of something in a folder leads to it. -/
theorem lookupFrom_of_isMade (h : ∀ s ∈ folder, IsName s) (hname : IsName name)
    (hsize : (rooted (folder ++ [name])).utf8ByteSize < pathLimit) (hmade : IsMade t folder)
    {e : Entry} (hentry : t.entryAt (folder ++ [name]) = some e) (work : String) :
    t.lookupFrom work (rooted (folder ++ [name])) = .ok e := by
  obtain ⟨time, hfolder⟩ := hmade folder (List.prefix_refl _)
  rw [lookupFrom_rooted (by simp) (names_concat h hname) hsize, walk_append,
    walk_of_isMade [] h hmade]
  simp [walk_name hname hfolder, hentry]

/-- The file at a plain path is read where the path leads to one. -/
theorem read_rooted {place : List String} (h : ∀ s ∈ place, IsName s) {work : String}
    {content : Content} {time : Double}
    (hfile : t.lookupFrom work (rooted place) = .ok (.file content time)) :
    t.read work (rooted place) = .ok content := by
  have hnull : (rooted place).toList.contains '\x00' = false := by
    simpa using FilePath.null_not_mem_rooted h
  rw [read, hnull, FilePath.isEmpty_rooted, hfile]
  rfl

/-! ## Making folders -/

/-- A folder on the way, made if nothing is there. -/
theorem entryAt_makeFolders (now : Double) (q : List String) {ps : List (List String)}
    (hps : ∀ p ∈ ps, p ≠ []) (t : Files) :
    (ps.foldl (fun t p => if (t.entryAt p).isSome then t else t.put p (.folder now)) t).entryAt q
      = if q ∈ ps ∧ t.entryAt q = none then some (.folder now) else t.entryAt q := by
  -- Each folder is made in the tree that the ones before it left.
  induction ps generalizing t with
  | nil => simp
  | cons p rest ih =>
    have hp : p ≠ [] := hps p (by simp)
    rw [List.foldl_cons, ih fun p' hp' => hps p' (List.mem_cons_of_mem _ hp')]
    cases hentry : t.entryAt p with
    | some e =>
      by_cases hq : q = p
      · subst hq
        simp [hentry]
      · simp [hq]
    | none =>
      by_cases hq : q = p
      · subst hq
        simp [entryAt_put_self _ _ hp, hentry]
      · simp [entryAt_put_of_ne _ _ hq, hq]

/-- Making the folders on the way to a place puts one wherever nothing stood on it. -/
theorem entryAt_withFolders (t : Files) (place q : List String) (now : Double) :
    (t.withFolders place now).entryAt q
      = if q <+: place ∧ t.entryAt q = none then some (.folder now) else t.entryAt q := by
  have htake : ∀ i < place.length, place.take (i + 1) ≠ [] := by
    intro i hi hnil
    have hlength := congrArg List.length hnil
    rw [List.length_take, List.length_nil] at hlength
    omega
  have hmem : q ∈ (List.range place.length).map (fun i => place.take (i + 1))
      ↔ q <+: place ∧ q ≠ [] := by
    simp only [List.mem_map, List.mem_range]
    constructor
    · rintro ⟨i, hi, rfl⟩
      exact ⟨List.take_prefix _ _, htake i hi⟩
    · rintro ⟨hq, hne⟩
      have hlength := hq.length_le
      have hpos := List.length_pos_iff.2 hne
      refine ⟨q.length - 1, by omega, ?_⟩
      rw [Nat.sub_add_cancel hpos]
      exact (List.prefix_iff_eq_take.1 hq).symm
  have hne : ∀ p ∈ (List.range place.length).map (fun i => place.take (i + 1)), p ≠ [] := by
    simp only [List.mem_map, List.mem_range]
    rintro p ⟨i, hi, rfl⟩
    exact htake i hi
  rw [withFolders, entryAt_makeFolders now q hne]
  simp only [hmem]
  by_cases hq : q = []
  · subst hq
    simp [entryAt]
  · simp [hq]

theorem isMade_withFolders (h : IsClear t folder) (now : Double) :
    IsMade (t.withFolders folder now) folder := by
  intro p hp
  rw [entryAt_withFolders]
  cases hentry : t.entryAt p with
  | none => exact ⟨now, by simp [hp]⟩
  | some e =>
    obtain ⟨time, rfl⟩ := h p hp e hentry
    exact ⟨time, by simp⟩

/-- A new file changes nothing but its own place, once its folder is there. -/
theorem entryAt_putFile (t : Files) (content : Content) (now : Double) {q : List String}
    (hq : q ≠ folder ++ [name]) : (t.putFile (folder ++ [name]) content now).entryAt q
      = (t.withFolders folder now).entryAt q := by
  rw [putFile, List.dropLast_concat, entryAt_put_of_ne _ _ hq]

theorem isMade_putFile (h : IsClear t folder) (name : String) (content : Content) (now : Double) :
    IsMade (t.putFile (folder ++ [name]) content now) folder := by
  intro p hp
  have hne : p ≠ folder ++ [name] := by
    rintro rfl
    have hlength := hp.length_le
    rw [List.length_append, List.length_singleton] at hlength
    omega
  rw [entryAt_putFile t content now hne]
  exact isMade_withFolders h now p hp

end Files

end FieldCheck
