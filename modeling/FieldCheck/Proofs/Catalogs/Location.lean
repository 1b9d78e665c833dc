/-
FieldCheck.Proofs.Catalogs.Location — where catalogs are fetched from and kept.

The location of a catalog begins with the location of the configuration. A
scheme ends at the first colon, so what stands behind the scheme of the one does
not change the scheme of the other (`scheme_catalogUri`).

A fetched catalog is kept under a name that has the digest of its location in
it. The name is short and plain, whatever the location is (`isName_keptName`),
so the path of the kept catalog leads to a place of its own in the folder
(`keptPath_rooted`), and two locations share a place only if they share a digest
(`keptName_inj`).
-/
import FieldCheck.Catalogs
import FieldCheck.Proofs.Files

namespace FieldCheck

/-! ## Schemes -/

namespace Uri

/-- The scheme of a location in lower case, which may be empty. -/
def schemeIn (location : String) : String :=
  String.ofList (splitScheme (cleaned location.toList)).1

theorem scheme_of_parse {location : String} {u : Uri} (h : parse location = .ok u) :
    u.scheme = schemeIn location := by
  rw [parse] at h
  cases hhost : checkHost (splitHost (splitScheme (cleaned location.toList)).2).1 with
  | error f => simp [hhost, Except.map] at h
  | ok host =>
    simp only [hhost, Except.map, Except.ok.injEq] at h
    rw [← h]
    rfl

theorem cleaned_append {cs : List Char} (h : cleaned cs ≠ []) (more : List Char) :
    ∃ more', cleaned (cs ++ more) = cleaned cs ++ more' := by
  have hfront : (cs.dropWhile isLeadingJunk).isEmpty = false := by
    rw [Bool.eq_false_iff, ne_eq, List.isEmpty_iff]
    intro hnil
    exact h (by rw [cleaned, hnil, List.filter_nil])
  rw [cleaned, cleaned, List.dropWhile_append, hfront]
  exact ⟨_, List.filter_append _ _⟩

theorem splitScheme_append {cs : List Char} (h : (splitScheme cs).1 ≠ []) (more : List Char) :
    (splitScheme (cs ++ more)).1 = (splitScheme cs).1 := by
  cases hback : cs.dropWhile (· != ':') with
  | nil => simp [splitScheme, hback] at h
  | cons c rest =>
    have hdrop : (cs ++ more).dropWhile (· != ':') = c :: (rest ++ more) := by
      simp [List.dropWhile_append, hback]
    have htake : (cs ++ more).takeWhile (· != ':') = cs.takeWhile (· != ':') := by
      have hparts := List.takeWhile_append_dropWhile (p := (· != ':')) (l := cs)
      have hlength := congrArg List.length hparts
      rw [hback, List.length_append, List.length_cons] at hlength
      rw [List.takeWhile_append, if_neg (by omega)]
    simp only [splitScheme, hback, hdrop, htake]
    split <;> rfl

/-- What stands behind a location with a scheme does not change the scheme. -/
theorem schemeIn_append {location : String} (h : schemeIn location ≠ "") (more : String) :
    schemeIn (location ++ more) = schemeIn location := by
  have hscheme : (splitScheme (cleaned location.toList)).1 ≠ [] := by
    intro hnil
    exact h (by rw [schemeIn, hnil])
  have hcleaned : cleaned location.toList ≠ [] := by
    intro hnil
    exact hscheme (by rw [hnil]; rfl)
  obtain ⟨more', hmore⟩ := cleaned_append hcleaned more.toList
  rw [schemeIn, String.toList_append, hmore, splitScheme_append hscheme, schemeIn]

end Uri

/-- All catalogs of a configuration have the scheme of its location. -/
theorem Settings.scheme_catalogUri {s : Settings} {name : String} {u : Uri}
    (hlocation : Uri.schemeIn s.location ≠ "") (h : Uri.parse (s.catalogUri name) = .ok u) :
    u.scheme = Uri.schemeIn s.location := by
  rw [Uri.scheme_of_parse h, catalogUri, String.append_assoc, String.append_assoc,
    Uri.schemeIn_append hlocation]

namespace Catalogs

open FilePath (IsName rooted)

/-! ## Names of kept catalogs -/

/-- The name under which the catalog of a location is kept. -/
def keptName (uri : String) : String :=
  "messages_" ++ Sha256.hexDigest uri.toUTF8.toList ++ ".yaml"

theorem hexDigit_isPlain : ∀ n : Fin 16, (Text.hexDigit n.val).utf8Size = 1
    ∧ Text.hexDigit n.val ≠ '/' ∧ Text.hexDigit n.val ≠ '\x00' := by decide

theorem mem_hexPadded {width n : Nat} {c : Char} (h : c ∈ Text.hexPadded width n) :
    c.utf8Size = 1 ∧ c ≠ '/' ∧ c ≠ '\x00' := by
  induction width generalizing n with
  | zero => simp [Text.hexPadded] at h
  | succ width ih =>
    rw [Text.hexPadded, List.mem_append, List.mem_singleton] at h
    rcases h with h | rfl
    · exact ih h
    · have hdigit := hexDigit_isPlain ⟨n % 16, Nat.mod_lt _ (by decide)⟩
      simpa [Text.hexDigit] using hdigit

theorem mem_hexDigest {message : List UInt8} {c : Char}
    (h : c ∈ (Sha256.hexDigest message).toList) : c.utf8Size = 1 ∧ c ≠ '/' ∧ c ≠ '\x00' := by
  rw [Sha256.hexDigest, String.toList_ofList, List.mem_flatMap] at h
  obtain ⟨w, -, hc⟩ := h
  exact mem_hexPadded hc

theorem utf8ByteSize_ofList {cs : List Char} (h : ∀ c ∈ cs, c.utf8Size = 1) :
    (String.ofList cs).utf8ByteSize = cs.length := by
  induction cs with
  | nil => rfl
  | cons c rest ih =>
    have hcons : String.ofList (c :: rest) = String.singleton c ++ String.ofList rest := by
      rw [← String.toList_inj]
      simp
    rw [hcons, String.utf8ByteSize_append, String.utf8ByteSize_singleton, h c (by simp),
      ih fun c' hc' => h c' (List.mem_cons_of_mem c hc'), List.length_cons]
    omega

theorem utf8ByteSize_keptName (uri : String) : (keptName uri).utf8ByteSize = 78 := by
  have hdigest : (Sha256.hexDigest uri.toUTF8.toList).utf8ByteSize = 64 := by
    have hplain : ∀ c ∈ (Sha256.hexDigest uri.toUTF8.toList).toList, c.utf8Size = 1 := fun c hc =>
      (mem_hexDigest hc).1
    have hsize := utf8ByteSize_ofList hplain
    rw [String.ofList_toList, String.length_toList, Sha256.length_hexDigest] at hsize
    exact hsize
  rw [keptName, String.utf8ByteSize_append, String.utf8ByteSize_append, hdigest]
  rfl

theorem isName_keptName (uri : String) : IsName (keptName uri) := by
  have hsize := utf8ByteSize_keptName uri
  have hmem : ∀ c : Char, c ∉ "messages_".toList → c ∉ ".yaml".toList →
      c ∈ (keptName uri).toList → c ∈ (Sha256.hexDigest uri.toUTF8.toList).toList := by
    intro c hfront hback hc
    rw [keptName, String.toList_append, String.toList_append, List.mem_append,
      List.mem_append] at hc
    rcases hc with (hc | hc) | hc
    · exact absurd hc hfront
    · exact hc
    · exact absurd hc hback
  have hne : ∀ s : String, s.utf8ByteSize ≠ 78 → keptName uri ≠ s := by
    rintro s hs rfl
    exact hs hsize
  exact {
    ne_empty := hne _ (by decide)
    ne_here := hne _ (by decide)
    ne_back := hne _ (by decide)
    slash_not_mem := fun h => (mem_hexDigest (hmem '/' (by decide) (by decide) h)).2.1 rfl
    null_not_mem := fun h => (mem_hexDigest (hmem '\x00' (by decide) (by decide) h)).2.2 rfl
    fits := by rw [hsize]; decide
  }

theorem keptName_inj {u v : String} : keptName u = keptName v ↔
    Sha256.hexDigest u.toUTF8.toList = Sha256.hexDigest v.toUTF8.toList := by
  rw [keptName, keptName, String.append_left_inj, String.append_right_inj]

/-! ## The folder of kept catalogs -/

/-- A path of a folder that catalogs can be kept in: a plain one, and short
enough for the names in it. -/
structure IsCacheFolder (cache : String) (folder : List String) : Prop where
  path_eq : cache = rooted folder
  ne_nil : folder ≠ []
  names : ∀ s ∈ folder, IsName s
  short : cache.utf8ByteSize + 79 < Files.pathLimit

variable {folders : Folders} {folder : List String}

theorem keptPath_rooted (h : IsCacheFolder folders.cache folder) (uri : String) :
    keptPath folders uri = rooted (folder ++ [keptName uri]) := by
  have hjoin := FilePath.join_name h.ne_nil h.names (isName_keptName uri)
  rw [← h.path_eq] at hjoin
  exact hjoin

theorem IsCacheFolder.short_kept (h : IsCacheFolder folders.cache folder) (uri : String) :
    (rooted (folder ++ [keptName uri])).utf8ByteSize < Files.pathLimit := by
  have hslash : ("/" : String).utf8ByteSize = 1 := by decide
  have hshort := h.short
  rw [FilePath.rooted_concat h.ne_nil, ← h.path_eq, String.utf8ByteSize_append,
    String.utf8ByteSize_append, utf8ByteSize_keptName, hslash]
  omega

end Catalogs

end FieldCheck
