import NamelistCatalog.Proofs.Catalog

/-!
Which catalogs share their hashed bytes. The character that ends a field is not escaped in a text, so a
text that holds it can take in the fields behind it, and a version the first entry. Such texts cost
entries: a catalog without the character shares its hashed bytes with no other one that lists as many.
-/

namespace NamelistCatalog.Text.Utf8

theorem encode_append (s t : String) : encode (s ++ t) = encode s ++ encode t := by
  rw [encode_eq_flatMap, encode_eq_flatMap, encode_eq_flatMap, String.toList_append,
    List.flatMap_append]

end NamelistCatalog.Text.Utf8

namespace NamelistCatalog.ContentHash

/-- How many characters of the texts end a field. -/
def nulCount (texts : List String) : Nat := (texts.flatMap Text.Utf8.encode).count fieldEnd

theorem nulFree_iff_not_mem_encode {s : String} :
    Text.NulFree s ↔ fieldEnd ∉ Text.Utf8.encode s := by
  refine ⟨Text.fieldEnd_not_mem_encode, ?_⟩
  intro habsent hmem
  apply habsent
  rw [Text.Utf8.encode_eq_flatMap, List.mem_flatMap]
  exact ⟨'\x00', hmem, by decide⟩

theorem nulCount_eq_zero_iff {texts : List String} :
    nulCount texts = 0 ↔ ∀ s ∈ texts, Text.NulFree s := by
  simp only [nulCount, List.count_eq_zero, List.mem_flatMap, not_exists, not_and,
    nulFree_iff_not_mem_encode]

theorem nulCount_cons (s : String) (texts : List String) :
    nulCount (s :: texts) = (Text.Utf8.encode s).count fieldEnd + nulCount texts := by
  rw [nulCount, List.flatMap_cons, List.count_append, nulCount]

theorem nulCount_append (texts more : List String) :
    nulCount (texts ++ more) = nulCount texts + nulCount more := by
  rw [nulCount, List.flatMap_append, List.count_append, nulCount, nulCount]

theorem count_fieldsBytes (fields : List String) :
    (fieldsBytes fields).count fieldEnd = nulCount fields + fields.length := by
  induction fields with
  | nil => rfl
  | cons field rest ih =>
      have hcons := fieldsBytes_cons field rest []
      rw [List.append_nil, List.append_nil] at hcons
      rw [hcons, List.count_append, List.count_cons_self, ih, nulCount_cons, List.length_cons]
      omega

theorem count_flatMap_entryBytes (entries : List Entry) :
    (entries.flatMap entryBytes).count fieldEnd =
      nulCount (entries.flatMap entryFields) + 10 * entries.length := by
  induction entries with
  | nil => rfl
  | cons e rest ih =>
      have hmark : (recordEnd == fieldEnd) = false := by decide
      have hlength : (entryFields e).length = 10 := rfl
      rw [List.flatMap_cons, List.flatMap_cons, entryBytes_append, List.count_append,
        List.count_cons, hmark, ih, count_fieldsBytes, hlength, nulCount_append, List.length_cons]
      simp only [Bool.false_eq_true, if_false]
      omega

theorem nulFree_iff_entryFields {e : Entry} :
    e.NulFree ↔ ∀ field ∈ entryFields e, Text.NulFree field := by
  refine ⟨nulFree_of_mem_entryFields, ?_⟩
  intro hfields s hs
  rcases List.mem_append.mp hs with hs | hs
  · apply hfields
    simp only [List.mem_cons, List.not_mem_nil, or_false] at hs
    rcases hs with rfl | rfl | rfl | rfl | rfl | rfl <;> simp [entryFields]
  · cases hdefault : e.defaultValue with
    | unset =>
        rw [hdefault] at hs
        cases hs
    | literal text =>
        rw [hdefault] at hs
        obtain rfl := List.mem_singleton.mp hs
        have htagged := hfields (taggedDefault e.defaultValue) (by simp [entryFields])
        rw [hdefault, taggedDefault, Text.NulFree, String.toList_append, List.mem_append,
          not_or] at htagged
        exact htagged.2

def fieldsText (fields : List String) : String :=
  fields.foldr (fun field text => field ++ ("\x00" ++ text)) ""

theorem encode_fieldsText (fields : List String) :
    Text.Utf8.encode (fieldsText fields) = fieldsBytes fields := by
  induction fields with
  | nil => rfl
  | cons field rest ih =>
      have hcons := fieldsBytes_cons field rest []
      have hmark : Text.Utf8.encode "\x00" = [fieldEnd] := by decide
      rw [List.append_nil, List.append_nil] at hcons
      rw [hcons, ← ih, fieldsText, List.foldr_cons, ← fieldsText, Text.Utf8.encode_append,
        Text.Utf8.encode_append, hmark, List.singleton_append]

end NamelistCatalog.ContentHash

namespace NamelistCatalog.Catalog

open ContentHash

variable {c d : Catalog}

def hashedTexts (c : Catalog) : List String :=
  c.info.sourceVersion.text :: c.entries.toList.flatMap entryFields

theorem nulCount_hashedTexts_eq_zero_iff : nulCount c.hashedTexts = 0 ↔ c.NulFree := by
  rw [nulCount_eq_zero_iff, hashedTexts, List.forall_mem_cons, NulFree]
  simp only [List.mem_flatMap, forall_exists_index, and_imp, nulFree_iff_entryFields,
    Array.mem_toList_iff]
  constructor
  · rintro ⟨hversion, hfields⟩
    exact ⟨hversion, fun e he field hfield => hfields field e he hfield⟩
  · rintro ⟨hversion, hentries⟩
    exact ⟨hversion, fun field e he hfield => hentries e he field hfield⟩

/-- The mark stands behind the ten fields of each entry, and for each character of a text that is one. -/
theorem count_hashedBytes (c : Catalog) :
    c.hashedBytes.count fieldEnd =
      (littleEndian c.info.schemaVersion).count fieldEnd + nulCount c.hashedTexts + 10 * c.size := by
  have hmark : [recordEnd].count fieldEnd = 0 := by decide
  rw [hashedBytes, bytes, List.count_append, List.count_append, List.count_append, hmark,
    count_flatMap_entryBytes, hashedTexts, nulCount_cons, size, Array.length_toList]
  omega

theorem hashedBytes_eq_of_sameContent (h : c.SameContent d) : c.hashedBytes = d.hashedBytes := by
  rw [hashedBytes, h.schemaVersion, h.sourceVersion, h.entries, hashedBytes]

theorem schemaVersion_eq_of_hashedBytes_eq (h : c.hashedBytes = d.hashedBytes) :
    c.info.schemaVersion = d.info.schemaVersion := by
  simp only [hashedBytes, bytes, List.append_assoc] at h
  exact (littleEndian_append_inj h).1

/-- With as many entries there is no room for a mark in a text. -/
theorem nulFree_of_hashedBytes_eq (hc : c.NulFree) (hsize : c.size ≤ d.size)
    (h : c.hashedBytes = d.hashedBytes) : d.NulFree := by
  have hnone := nulCount_hashedTexts_eq_zero_iff.mpr hc
  have hmarks := congrArg (List.count fieldEnd) h
  rw [count_hashedBytes, count_hashedBytes, schemaVersion_eq_of_hashedBytes_eq h] at hmarks
  exact nulCount_hashedTexts_eq_zero_iff.mp (by omega)

/-- The catalog whose version takes in what is hashed for the first entry. -/
def swallowFirst (c : Catalog) (e : Entry) (rest : List Entry) (h : c.entries.toList = e :: rest) :
    Catalog :=
  { info :=
      { c.info with
        sourceVersion := ⟨c.info.sourceVersion.text ++ ("\x1e" ++ fieldsText (entryFields e))⟩ }
    entries := rest.toArray
    listed := by
      have hlisted := c.listed
      rw [h] at hlisted
      exact ⟨fun d hd => hlisted.1 d (List.mem_cons_of_mem e hd), hlisted.2.of_cons⟩ }

theorem hashedBytes_swallowFirst {e : Entry} {rest : List Entry} (h : c.entries.toList = e :: rest) :
    (c.swallowFirst e rest h).hashedBytes = c.hashedBytes := by
  have hmark : Text.Utf8.encode "\x1e" = [recordEnd] := by decide
  rw [hashedBytes, hashedBytes, bytes, bytes, h, List.flatMap_cons, entryBytes_append]
  simp only [swallowFirst, Text.Utf8.encode_append, hmark, encode_fieldsText, List.append_assoc,
    List.cons_append, List.nil_append]

theorem exists_hashedBytes_eq (hc : c.size ≠ 0) :
    ∃ d : Catalog, d.size + 1 = c.size ∧ d.hashedBytes = c.hashedBytes := by
  cases hentries : c.entries.toList with
  | nil =>
      rw [size, ← Array.length_toList, hentries] at hc
      exact absurd rfl hc
  | cons e rest =>
      refine ⟨c.swallowFirst e rest hentries, ?_, hashedBytes_swallowFirst hentries⟩
      rw [size, size, ← Array.length_toList, ← Array.length_toList, hentries]
      rfl

/-- Of a catalog without the mark in its texts, the hashed bytes tell versions and entries apart from
those of every catalog without the mark and of every catalog that lists as many entries. They do not tell
them apart from those of all catalogs, unless it lists no entry. -/
theorem hashedBytes_separate (hc : c.NulFree) :
    (∀ d : Catalog, d.NulFree ∨ c.size ≤ d.size →
        (c.hashedBytes = d.hashedBytes ↔ c.SameContent d)) ∧
      (c.size ≠ 0 → ∃ d : Catalog, d.size + 1 = c.size ∧ d.hashedBytes = c.hashedBytes) := by
  refine ⟨?_, exists_hashedBytes_eq⟩
  intro d hd
  refine ⟨?_, hashedBytes_eq_of_sameContent⟩
  intro h
  rcases hd with hd | hsize
  · exact sameContent_of_hashedBytes_eq hc hd h
  · exact sameContent_of_hashedBytes_eq hc (nulFree_of_hashedBytes_eq hc hsize h) h

def single (e : Entry) (h : e.check = none) : Catalog :=
  { info := { schemaVersion := currentSchema, sourceVersion := e.version, generatedAt := "now" }
    entries := #[e]
    listed := Entry.listed_singleton h }

/-- A catalog with a letter in front of the end of a field. -/
def letterBefore : Catalog :=
  single { name := "ab", namelist := "c", version := ⟨"1"⟩ } (by decide +kernel)

/-- The catalog with the letter behind the end. -/
def letterBehind : Catalog :=
  single { name := "a", namelist := "bc", version := ⟨"1"⟩ } (by decide +kernel)

theorem hashedBytes_separate_letterBefore :
    letterBefore.NulFree ∧ letterBefore.size ≤ letterBehind.size ∧
      letterBefore.hashedBytes ≠ letterBehind.hashedBytes ∧
      ∃ d : Catalog, d.size = 0 ∧ d.hashedBytes = letterBefore.hashedBytes := by
  have hfree : letterBefore.NulFree := nulCount_hashedTexts_eq_zero_iff.mp (by decide +kernel)
  have hsize : letterBefore.size ≤ letterBehind.size := Nat.le_refl 1
  obtain ⟨hseparate, hshare⟩ := hashedBytes_separate hfree
  refine ⟨hfree, hsize, ?_, ?_⟩
  · intro h
    have hentries := ((hseparate letterBehind (.inr hsize)).mp h).entries
    exact absurd hentries (by decide +kernel)
  · obtain ⟨d, hd, hbytes⟩ := hshare (by decide)
    exact ⟨d, Nat.succ.inj hd, hbytes⟩

/-- The character that ends a field stands in a documentation, or in a summary in front of it. -/
theorem not_forall_sameContent :
    ¬∀ c d : Catalog, c.hashedBytes = d.hashedBytes → c.SameContent d := by
  intro hall
  have hsame := hall
    (single { name := "a", version := ⟨"1"⟩, summary := "p", doc := "q\x00r" } (by decide +kernel))
    (single { name := "a", version := ⟨"1"⟩, summary := "p\x00q", doc := "r" } (by decide +kernel))
    (by decide +kernel)
  exact absurd hsame.entries (by decide +kernel)

end NamelistCatalog.Catalog
