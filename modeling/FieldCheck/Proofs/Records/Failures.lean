/-
FieldCheck.Proofs.Records.Failures — when loading records fails, and how.

A load goes through many steps, and each of them has faults of its own: decoding
the path, finding the file, asking the network, decoding the bytes, reading the text.
`IsCause` lists these faults, step by step, and none of them leaves a load as it is:
the location is put in front (`IsFailure`). A content that is too large has a wording
of its own.

The parts of the location are found before all this, and a host that is none is a
fault of its own there. So a load ends in one of three ways (`load_ends`): with the
records that are provided at the location, with a failure to load them, or, for a
location with such a host and for no other one, with the fault of the host.
-/
import FieldCheck.Proofs.Check.Faults
import FieldCheck.Proofs.Records.Sources

namespace FieldCheck

open FieldCheck.Action

/-! ## Hosts -/

namespace Uri

/-- The characters of the host of a location. -/
def hostChars (location : String) : List Char :=
  (splitHost (splitScheme (cleaned location.toList)).2).1

/-- The host of the location has brackets that do not enclose an address, or a
character that folds to a mark between the parts of a location. -/
inductive HasFlawedHost (location : String) : Prop
  | brackets {reason : String} (h : bracketFlaw (hostChars location) = some reason)
  | folding {c : Char} (hmem : c ∈ hostChars location) (h : c.toNat ∈ foldsToDelimiter)

theorem foldingFlaw_eq_none_iff (host : List Char) :
    foldingFlaw host = none ↔ ∀ c ∈ host, c.toNat ∉ foldsToDelimiter := by
  simp [foldingFlaw]

/-- A location has parts exactly when its host is not flawed. -/
theorem exists_parse_iff (location : String) :
    (∃ u, parse location = .ok u) ↔ ¬ HasFlawedHost location := by
  have hparse : (∃ u, parse location = .ok u) ↔ checkHost (hostChars location) = .ok () := by
    show (∃ u, (checkHost (hostChars location)).map _ = .ok u) ↔ _
    cases checkHost (hostChars location) <;> simp [Except.map]
  have hcheck : checkHost (hostChars location) = .ok () ↔
      bracketFlaw (hostChars location) = none ∧ foldingFlaw (hostChars location) = none := by
    cases hbracket : bracketFlaw (hostChars location) <;>
      cases hfolding : foldingFlaw (hostChars location) <;> simp [checkHost, hbracket, hfolding]
  rw [hparse, hcheck, foldingFlaw_eq_none_iff]
  constructor
  · rintro ⟨hbracket, hfolding⟩ (⟨hflaw⟩ | ⟨hmem, hc⟩)
    · rw [hbracket] at hflaw
      cases hflaw
    · exact hfolding _ hmem hc
  · intro h
    refine ⟨?_, fun c hmem hc => h (.folding hmem hc)⟩
    cases hflaw : bracketFlaw (hostChars location) with
    | none => rfl
    | some reason => exact absurd (.brackets hflaw) h

/-- What is wrong with the parts of a location is what is wrong with its host. -/
theorem eq_malformedHost_of_parse {location : String} {f : Fault} (h : parse location = .error f) :
    ∃ reason, f = .malformedHost reason := by
  have hhost := eq_error_of_map h
  rw [checkHost] at hhost
  split at hhost
  · cases hhost
  · cases hhost
    exact ⟨_, rfl⟩

theorem mem_of_mem_splitScheme {cs : List Char} {c : Char} (h : c ∈ (splitScheme cs).2) :
    c ∈ cs := by
  rw [splitScheme] at h
  split at h
  · rename_i colon rest hrest
    split at h
    · exact (List.dropWhile_suffix _).subset (hrest ▸ List.mem_cons_of_mem colon h)
    · exact h
  · exact h

theorem mem_of_mem_splitHost {cs : List Char} {c : Char} (h : c ∈ (splitHost cs).1) : c ∈ cs := by
  unfold splitHost at h
  split at h
  · exact List.mem_cons_of_mem _ (List.mem_cons_of_mem _ ((List.takeWhile_prefix _).subset h))
  · cases h

/-- The host is made of characters of the location. -/
theorem mem_of_mem_hostChars {location : String} {c : Char} (h : c ∈ hostChars location) :
    c ∈ location.toList := by
  have hcleaned := mem_of_mem_splitScheme (mem_of_mem_splitHost h)
  exact (List.dropWhile_suffix _).subset (List.mem_of_mem_filter hcleaned)

/-- The location has no bracket and no character that folds to a mark. -/
structure IsUnbracketed (location : String) : Prop where
  opening : '[' ∉ location.toList
  closing : ']' ∉ location.toList
  folding : ∀ c ∈ location.toList, c.toNat ∉ foldsToDelimiter

theorem IsUnbracketed.not_hasFlawedHost {location : String} (h : IsUnbracketed location) :
    ¬ HasFlawedHost location := by
  rintro (⟨hflaw⟩ | ⟨hmem, hc⟩)
  · rw [bracketFlaw_of_not_mem (fun hmem => h.opening (mem_of_mem_hostChars hmem))
      fun hmem => h.closing (mem_of_mem_hostChars hmem)] at hflaw
    cases hflaw
  · exact h.folding _ (mem_of_mem_hostChars hmem) hc

end Uri

namespace Records

variable {f : Fault}

/-! ## Causes -/

/-- Why nothing comes from a location, or why no records are in what comes. -/
inductive IsCause : Fault → Prop
  | nullInPath : IsCause .nullInPath
  | notRegularFile (path : String) : IsCause (.notRegularFile path)
  | nameTooLong (path : String) : IsCause (.nameTooLong path)
  | unknownScheme (scheme : String) : IsCause (.recordsScheme scheme)
  | web (message : String) : IsCause (.web message)
  | notUtf8 (fault : Text.Utf8.Fault) : IsCause (.notUtf8 fault)
  | notJson (message : String) : IsCause (.notJson message)
  | tooLongToRead (digits : Nat) : IsCause (.tooLongToRead digits)

/-- A failure to load the records at a location: what comes is too large, or there is
a cause with the location in front. -/
inductive IsFailure (location : String) : Fault → Prop
  | tooLarge : IsFailure location (.remoteTooLarge sizeLimit)
  | caused {cause : Fault} (h : IsCause cause) : IsFailure location (.recordsFailed location cause)

theorem isCause_of_charsOf {bytes : ByteArray} (h : charsOf bytes = .error f) : IsCause f := by
  rw [charsOf] at h
  split at h
  · cases h
  · cases h
    exact .notUtf8 _

theorem isCause_of_ofChars {cs : List Char} (h : ofChars cs = .error f) : IsCause f := by
  have hread := eq_error_of_map h
  rw [Json.read] at hread
  split at hread
  · cases hread
  · rename_i refusal _
    cases hread
    cases refusal with
    | complaint what left => exact .notJson _
    | digits n => exact .tooLongToRead n

theorem isCause_of_fileBytes {t : Files} {path : String} (h : fileBytes t path = .error f) :
    IsCause f := by
  rw [fileBytes] at h
  split at h <;> cases h
  · exact .notRegularFile path
  · exact .nameTooLong path
  · exact .notRegularFile path

theorem isCause_of_ofFile {w : World} {path : String} (h : ofFile w path = .error f) :
    IsCause f := by
  rw [ofFile] at h
  split at h
  · cases h
    exact .nullInPath
  split at h
  · rename_i hbytes
    cases h
    exact isCause_of_fileBytes hbytes
  split at h
  · rename_i hchars
    cases h
    exact isCause_of_charsOf hchars
  · exact isCause_of_ofChars h

/-- What is wrong with a reply is a cause, unless it is its size. -/
theorem isCause_of_ofReply {r : Reply} (h : ofReply r = .error f) :
    f = .remoteTooLarge sizeLimit ∨ IsCause f := by
  rw [ofReply] at h
  split at h
  · rename_i hbytes
    cases h
    cases r with
    | unreachable m =>
      cases hbytes
      exact .inr (.web m)
    | refused m =>
      cases hbytes
      exact .inr (.web m)
    | content whole chunks =>
      rw [replyBytes_eq] at hbytes
      split at hbytes <;> cases hbytes
      exact .inl rfl
  split at h
  · rename_i hchars
    cases h
    exact .inr (isCause_of_charsOf hchars)
  · exact .inr (isCause_of_ofChars h)

/-- With the location in front, a cause is a failure. A content that is too large is one by itself. -/
theorem isFailure_of_mapError {α : Type} {location : String} {x : Except Fault α}
    (hx : ∀ e, x = .error e → e = .remoteTooLarge sizeLimit ∨ IsCause e)
    (h : x.mapError (failure location) = .error f) : IsFailure location f := by
  cases x with
  | ok a => cases h
  | error e =>
    cases h
    rcases hx e rfl with rfl | hcause
    · exact .tooLarge
    · cases hcause <;> exact .caused (by constructor)

/-! ## Loads -/

/-- Records are provided at a location: bytes that spell them are in the file that it
names, or come over the network and are not too many. -/
inductive Provides (w : World) (location : String) (records : List Value) : Prop
  | file {bytes : ByteArray} {j : Json} (hfile : NamesFile w location bytes)
      (hspells : Spells bytes j) (hrecords : ofJson j = records)
  | web {whole : Content} {chunks : List ByteArray} {j : Json} (hweb : IsOnWeb location)
      (hreply : w.reply location = .content whole chunks)
      (hsize : (joined chunks).size ≤ byteLimit) (hspells : Spells (joined chunks) j)
      (hrecords : ofJson j = records)

section

variable {w : World} {location path : String} {records : List Value} {u : Uri}

/-- Records are provided only at a location with parts, and its scheme is a known one. -/
theorem Provides.exists_parse (h : Provides w location records) :
    ∃ u, Uri.parse location = .ok u
      ∧ (u.scheme = "file" ∨ u.scheme = "http" ∨ u.scheme = "https") := by
  cases h with
  | file hfile =>
    obtain ⟨u, hparse, hscheme, -⟩ := hfile
    exact ⟨u, hparse, .inl hscheme⟩
  | web hweb =>
    obtain ⟨u, hparse, hscheme⟩ := hweb
    exact ⟨u, hparse, .inr hscheme⟩

theorem exists_file_of_ofFile (h : ofFile w path = .ok records) :
    '\x00' ∉ path.toList ∧ ∃ content modified,
      w.files.lookup (FilePath.resolved w.folders.work path) = .ok (.file content modified) := by
  rw [ofFile] at h
  split at h
  · cases h
  · rename_i hnull
    refine ⟨by simpa using hnull, ?_⟩
    cases hlookup : w.files.lookup (FilePath.resolved w.folders.work path) with
    | error o => cases o <;> simp [fileBytes, hlookup] at h
    | ok entry =>
      cases entry with
      | folder modified => simp [fileBytes, hlookup] at h
      | file content modified => exact ⟨content, modified, rfl⟩

variable {σ : Type} (s : σ)

/-- A load from a file has the records that are provided, or it fails. -/
theorem loadAt_of_file (hparse : Uri.parse location = .ok u) (hscheme : u.scheme = "file") :
    (∀ records, (loadAt (.text location) s w).1 = .ok records ↔ Provides w location records)
      ∧ ∀ f, (loadAt (.text location) s w).1 = .error f → IsFailure location f := by
  have hload : (loadAt (.text location) s w).1
      = (ofFile w (String.ofList (Text.Percent.decode u.path.toList))).mapError (failure location) := by
    rw [loadAt, load, hparse, ofExcept_ok_bind, world_bind, if_pos hscheme]
    rfl
  refine ⟨fun records => ⟨fun hok => ?_, fun hprovides => ?_⟩, fun f hf => ?_⟩
  · have hfile := hok
    rw [hload, mapError_eq_ok_iff] at hfile
    obtain ⟨hnull, content, modified, hlookup⟩ := exists_file_of_ofFile hfile
    rw [String.toList_ofList] at hnull
    have hnames : NamesFile w location content.asBytes :=
      ⟨u, hparse, hscheme, hnull, content, modified, rfl, hlookup⟩
    obtain ⟨j, hspells, hrecords⟩ := ((loadAt_of_namesFile s w hnames).2 records).1 hok
    exact .file hnames hspells hrecords
  · cases hprovides with
    | file hfile hspells hrecords =>
      exact ((loadAt_of_namesFile s w hfile).2 records).2 ⟨_, hspells, hrecords⟩
    | web hweb =>
      obtain ⟨u', hparse', hscheme'⟩ := hweb
      obtain rfl : u = u' := Except.ok.inj (hparse.symm.trans hparse')
      simp [hscheme] at hscheme'
  · rw [hload] at hf
    exact isFailure_of_mapError (fun e he => .inr (isCause_of_ofFile he)) hf

/-- A load over the network has the records that are provided, or it fails. -/
theorem loadAt_of_web (hweb : IsOnWeb location) :
    (∀ records, (loadAt (.text location) s w).1 = .ok records ↔ Provides w location records)
      ∧ ∀ f, (loadAt (.text location) s w).1 = .error f → IsFailure location f := by
  have hload : (loadAt (.text location) s w).1
      = (ofReply (w.reply location)).mapError (failure location) := by
    rw [loadAt_of_isOnWeb s w hweb]
  rw [hload]
  refine ⟨fun records => ?_, fun f => isFailure_of_mapError fun e => isCause_of_ofReply⟩
  rw [mapError_eq_ok_iff]
  constructor
  · intro hok
    cases hreply : w.reply location with
    | unreachable m =>
      rw [hreply] at hok
      cases hok
    | refused m =>
      rw [hreply] at hok
      cases hok
    | content whole chunks =>
      rw [hreply] at hok
      rcases Nat.lt_or_ge byteLimit (joined chunks).size with hlarge | hsize
      · rw [ofReply_of_lt whole hlarge] at hok
        cases hok
      · obtain ⟨j, hspells, hrecords⟩ := (ofReply_eq_ok_iff whole hsize records).1 hok
        exact .web hweb hreply hsize hspells hrecords
  · intro hprovides
    cases hprovides with
    | file hfile =>
      obtain ⟨u, hparse, hscheme, -⟩ := hfile
      obtain ⟨u', hparse', hscheme'⟩ := hweb
      obtain rfl : u = u' := Except.ok.inj (hparse.symm.trans hparse')
      simp [hscheme] at hscheme'
    | web _ hreply hsize hspells hrecords =>
      rw [hreply]
      exact (ofReply_eq_ok_iff _ hsize records).2 ⟨_, hspells, hrecords⟩

/-- A location with parts has its records loaded, or the load fails. -/
theorem loadAt_of_parse (hparse : Uri.parse location = .ok u) :
    (∀ records, (loadAt (.text location) s w).1 = .ok records ↔ Provides w location records)
      ∧ ∀ f, (loadAt (.text location) s w).1 = .error f → IsFailure location f := by
  by_cases hfile : u.scheme = "file"
  · exact loadAt_of_file s hparse hfile
  by_cases hweb : u.scheme = "http" ∨ u.scheme = "https"
  · exact loadAt_of_web s ⟨u, hparse, hweb⟩
  · have hload : loadAt (.text location) s w
        = (.error (.recordsFailed location (.recordsScheme u.scheme)), s, w) := by
      rw [loadAt, load, hparse, ofExcept_ok_bind, world_bind, if_neg hfile, if_neg hweb]
      rfl
    rw [hload]
    refine ⟨fun records => ⟨fun hok => ?_, fun hprovides => ?_⟩, fun f hf => ?_⟩
    · cases hok
    · obtain ⟨u', hparse', hscheme⟩ := hprovides.exists_parse
      obtain rfl : u = u' := Except.ok.inj (hparse.symm.trans hparse')
      exact absurd hscheme (by simp [hfile, hweb])
    · cases hf
      exact .caused (.unknownScheme _)

/-- The fault of a host leaves a load as it is, before anything is read or asked for. -/
theorem loadAt_of_hasFlawedHost (h : Uri.HasFlawedHost location) :
    ∃ reason, loadAt (.text location) s w = (.error (.malformedHost reason), s, w) := by
  cases hparse : Uri.parse location with
  | ok u => exact absurd h ((Uri.exists_parse_iff location).1 ⟨u, hparse⟩)
  | error f =>
    obtain ⟨reason, rfl⟩ := Uri.eq_malformedHost_of_parse hparse
    refine ⟨reason, ?_⟩
    rw [loadAt, load, hparse, ofExcept_error_bind]

end

/-- A load has records exactly when they are provided at the location. A fault other
than a failure to load them arises exactly for a location with a flawed host, and then
it is the fault of that host. A location without brackets has no such host, unless it
has a character that folds to a mark. -/
theorem load_ends {σ : Type} (location : String) (s : σ) (w : World) :
    (∀ records, (loadAt (.text location) s w).1 = .ok records ↔ Provides w location records)
      ∧ ((∃ f, (loadAt (.text location) s w).1 = .error f ∧ ¬ IsFailure location f)
        ↔ Uri.HasFlawedHost location)
      ∧ (Uri.HasFlawedHost location →
        ∃ reason, loadAt (.text location) s w = (.error (.malformedHost reason), s, w))
      ∧ (Uri.IsUnbracketed location → ¬ Uri.HasFlawedHost location) := by
  refine ⟨fun records => ?_, ?_, loadAt_of_hasFlawedHost s, Uri.IsUnbracketed.not_hasFlawedHost⟩
  · by_cases hflawed : Uri.HasFlawedHost location
    · obtain ⟨reason, hload⟩ := loadAt_of_hasFlawedHost (w := w) s hflawed
      rw [hload]
      refine ⟨fun hok => ?_, fun hprovides => ?_⟩
      · cases hok
      · obtain ⟨u, hparse, -⟩ := hprovides.exists_parse
        exact absurd hflawed ((Uri.exists_parse_iff location).1 ⟨u, hparse⟩)
    · obtain ⟨u, hparse⟩ := (Uri.exists_parse_iff location).2 hflawed
      exact (loadAt_of_parse s hparse).1 records
  · constructor
    · rintro ⟨f, hf, hnot⟩
      by_contra hsound
      obtain ⟨u, hparse⟩ := (Uri.exists_parse_iff location).2 hsound
      exact hnot ((loadAt_of_parse s hparse).2 f hf)
    · intro hflawed
      obtain ⟨reason, hload⟩ := loadAt_of_hasFlawedHost (w := w) s hflawed
      refine ⟨.malformedHost reason, by rw [hload], ?_⟩
      rintro ⟨⟩

/-- A world with nothing in it. -/
def bareWorld : World := ⟨⟨"/", "/", "/"⟩, .empty, [], .zero, [], []⟩

/-- A bracket that is not closed is no failure to load anything, only a fault of the host. -/
theorem not_isFailure_openBracket :
    (loadAt (.text "http://[") () bareWorld).1 = .error (.malformedHost "Invalid IPv6 URL")
      ∧ ¬ IsFailure "http://[" (.malformedHost "Invalid IPv6 URL") := by
  refine ⟨rfl, ?_⟩
  rintro ⟨⟩

end Records

end FieldCheck
