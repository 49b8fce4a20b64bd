import NamelistCatalog.Proofs.Store.Reading

namespace NamelistCatalog.Store

/-- The store that holds a catalog and nothing else. -/
def ofCatalog (c : Catalog) : Store :=
  { userVersion := keptVersion c.info.schemaVersion
    entries := some (EntryRow.ofEntries 1 c.entries.toList)
    metadata := some (metadataOf c) }

theorem keys_ne (c : Catalog) : c.entries.toList.Pairwise fun a b => a.key ≠ b.key :=
  (Entry.checkAll_eq_none_iff.mp (Entry.checkAll_of_listed c.listed)).2

theorem putAll_metadataOf (c : Catalog) : putAll (metadataOf c) [] = metadataOf c := rfl

theorem write_empty (c : Catalog) : ({} : Store).write c = .ok (ofCatalog c) := by
  have hrows : c.entries.toList.foldlM EntryRow.add [] =
      .ok (EntryRow.ofEntries 1 c.entries.toList) :=
    EntryRow.foldlM_add_eq_ok (by simp) (keys_ne c)
  unfold write
  rw [Option.getD_none, hrows, Option.getD_none, putAll_metadataOf]
  rfl

theorem keptVersion_eq_current_iff {n : UInt32} :
    keptVersion n = currentSchema.toNat ↔ n = currentSchema := by
  rw [← UInt32.toNat_inj]
  have hcurrent : currentSchema.toNat = 1 := rfl
  unfold keptVersion
  split <;> omega

theorem lookup_sourceVersion (c : Catalog) :
    (metadataOf c).lookup sourceVersionKey = some c.info.sourceVersion.text := rfl

theorem lookup_generatedAt (c : Catalog) :
    (metadataOf c).lookup generatedAtKey = some c.info.generatedAt := rfl

theorem lookup_entryCount (c : Catalog) :
    (metadataOf c).lookup entryCountKey = some (toString c.size) := rfl

theorem lookup_contentHash (c : Catalog) :
    (metadataOf c).lookup contentHashKey = some c.contentHash := rfl

/-- What a written catalog reads as: the catalog with its versions trimmed, unless a check fails. -/
theorem read_ofCatalog_eq_ok_iff {c d : Catalog} :
    (ofCatalog c).read = .ok d ↔
      c.info.schemaVersion = currentSchema ∧ c.size ≤ Text.maxCount ∧ d = c.trimVersions ∧
        d.contentHash = c.contentHash := by
  have hsorted : Entry.sortByName (c.entries.toList.map Entry.trimVersion) =
      c.entries.toList.map Entry.trimVersion :=
    Entry.sortByName_of_listed (Entry.listed_map_trimVersion c.listed)
  have hcount := Text.signedCount?_toString c.size
  rw [read_eq_ok_iff]
  constructor
  · rintro ⟨hversion, rows, metadata, entries, h⟩
    obtain rfl := Option.some.inj h.rows_eq
    obtain rfl := Option.some.inj h.metadata_eq
    have hschema := keptVersion_eq_current_iff.mp hversion
    have hdecodes := h.decodes
    rw [EntryRow.mapM_decode_ofEntries] at hdecodes
    obtain rfl := Except.ok.inj hdecodes
    have htime := h.generatedAt
    have hhash := h.hash
    obtain ⟨v, hv, hsource⟩ := h.sourceVersion
    obtain ⟨n, hn, hlength⟩ := h.count
    rw [lookup_generatedAt, Option.some.injEq] at htime
    rw [lookup_contentHash, Option.some.injEq] at hhash
    rw [lookup_sourceVersion, Option.some.injEq] at hv
    rw [lookup_entryCount, Option.some.injEq] at hn
    rw [← hn, hcount] at hlength
    refine ⟨hschema, ?_, ?_, hhash.symm⟩
    · by_contra hlarge
      rw [if_neg hlarge] at hlength
      cases hlength
    · apply Catalog.ext_fields
      · rw [h.schema, Catalog.info_trimVersions, hschema]
      · rw [hsource, ← hv, Catalog.info_trimVersions]
      · rw [← htime, Catalog.info_trimVersions]
      · rw [h.sorted, hsorted, Catalog.toList_trimVersions]
  · rintro ⟨hschema, hsize, rfl, hhash⟩
    refine ⟨keptVersion_eq_current_iff.mpr hschema, EntryRow.ofEntries 1 c.entries.toList,
      metadataOf c, c.entries.toList.map Entry.trimVersion, ?_⟩
    exact
      { rows_eq := rfl
        metadata_eq := rfl
        sourceVersion := ⟨_, lookup_sourceVersion c, by rw [Catalog.info_trimVersions]⟩
        generatedAt := by rw [Catalog.info_trimVersions]; exact lookup_generatedAt c
        count := ⟨_, lookup_entryCount c, by rw [hcount, if_pos hsize, List.length_map]; rfl⟩
        hash := by rw [lookup_contentHash, hhash]
        decodes := EntryRow.mapM_decode_ofEntries 1 _
        accepted := Entry.checkAll_of_listed (Entry.listed_map_trimVersion c.listed)
        schema := by rw [Catalog.info_trimVersions]; exact hschema
        sorted := by rw [Catalog.toList_trimVersions, hsorted] }

theorem read_ofCatalog_of_trimmed {c : Catalog} (hschema : c.info.schemaVersion = currentSchema)
    (htrimmed : c.HasTrimmedVersions) (hsize : c.size ≤ Text.maxCount) :
    (ofCatalog c).read = .ok c := by
  have hsame := Catalog.trimVersions_eq_self_iff.mpr htrimmed
  exact read_ofCatalog_eq_ok_iff.mpr ⟨hschema, hsize, hsame.symm, rfl⟩

theorem eq_of_read_ofCatalog {c d : Catalog}
    (hsha : ¬Sha256.Collide c.trimVersions.hashedBytes c.hashedBytes)
    (h : (ofCatalog c).read = .ok d) : c.HasTrimmedVersions ∧ d = c := by
  obtain ⟨-, -, rfl, hhash⟩ := read_ofCatalog_eq_ok_iff.mp h
  have htrimmed := Catalog.hasTrimmedVersions_of_hashedBytes_eq
    (Catalog.hashedBytes_eq_of_contentHash_eq hhash hsha)
  exact ⟨htrimmed, Catalog.trimVersions_eq_self_iff.mpr htrimmed⟩

/-- Every catalog can be written to an empty store. It is read back as it was exactly when it has the
current layout and its versions are trimmed, and otherwise reading fails: the blanks that are lost
show in the content hash, unless SHA-256 collides on the bytes with and without them. The size of a
catalog in memory is a count. -/
theorem read_write_empty (c : Catalog) (hsize : c.size ≤ Text.maxCount)
    (hsha : ¬Sha256.Collide c.trimVersions.hashedBytes c.hashedBytes) :
    ∃ s, ({} : Store).write c = .ok s ∧
      (s.read = .ok c ↔ c.info.schemaVersion = currentSchema ∧ c.HasTrimmedVersions) ∧
      (¬(c.info.schemaVersion = currentSchema ∧ c.HasTrimmedVersions) →
        ∃ e, s.read = .error e) := by
  have hiff : (ofCatalog c).read = .ok c ↔
      c.info.schemaVersion = currentSchema ∧ c.HasTrimmedVersions := by
    constructor
    · intro h
      exact ⟨(read_ofCatalog_eq_ok_iff.mp h).1, (eq_of_read_ofCatalog hsha h).1⟩
    · rintro ⟨hschema, htrimmed⟩
      exact read_ofCatalog_of_trimmed hschema htrimmed hsize
  refine ⟨ofCatalog c, write_empty c, hiff, ?_⟩
  intro hlost
  cases h : (ofCatalog c).read with
  | error e => exact ⟨e, rfl⟩
  | ok d =>
      obtain ⟨-, rfl⟩ := eq_of_read_ofCatalog hsha h
      exact absurd (hiff.mp h) hlost

/-- A catalog with a version that a blank precedes. -/
def paddedCatalog : Catalog :=
  { info := { schemaVersion := currentSchema, sourceVersion := ⟨"1"⟩, generatedAt := "now" }
    entries := #[{ name := "x", version := ⟨" 1"⟩ }]
    listed := by
      refine ⟨?_, List.pairwise_singleton _ _⟩
      decide +kernel }

theorem not_collide_paddedCatalog :
    ¬Sha256.Collide paddedCatalog.trimVersions.hashedBytes paddedCatalog.hashedBytes := by
  rintro ⟨-, h⟩
  revert h
  decide +kernel

theorem read_write_paddedCatalog :
    paddedCatalog.size ≤ Text.maxCount ∧
      ¬Sha256.Collide paddedCatalog.trimVersions.hashedBytes paddedCatalog.hashedBytes ∧
      ∃ s, ({} : Store).write paddedCatalog = .ok s ∧ ∃ e, s.read = .error e := by
  have hsize : paddedCatalog.size ≤ Text.maxCount := by decide
  obtain ⟨s, hwrite, -, hlost⟩ := read_write_empty paddedCatalog hsize not_collide_paddedCatalog
  refine ⟨hsize, not_collide_paddedCatalog, s, hwrite, hlost ?_⟩
  rintro ⟨-, htrimmed⟩
  revert htrimmed
  decide +kernel

end NamelistCatalog.Store
