import NamelistCatalog.Proofs.Store.Rows

namespace NamelistCatalog.Store

/-- The store holds the catalog `c`: these rows are the table of entries and decode to these entries,
and this is the table of facts. -/
structure Holds (s : Store) (c : Catalog) (rows : List EntryRow) (metadata : List (String × String))
    (entries : List Entry) : Prop where
  rows_eq : s.entries = some rows
  metadata_eq : s.metadata = some metadata
  sourceVersion : ∃ v, metadata.lookup sourceVersionKey = some v ∧
    c.info.sourceVersion = SourceVersion.ofString v
  generatedAt : metadata.lookup generatedAtKey = some c.info.generatedAt
  count : ∃ n, metadata.lookup entryCountKey = some n ∧
    Text.signedCount? n.toList = some entries.length
  hash : metadata.lookup contentHashKey = some c.contentHash
  decodes : rows.mapM EntryRow.decode = .ok entries
  accepted : Entry.checkAll entries = none
  schema : c.info.schemaVersion = currentSchema
  sorted : c.entries.toList = Entry.sortByName entries

theorem field_eq_ok_iff {metadata : List (String × String)} {key value : String} :
    field metadata key = .ok value ↔ metadata.lookup key = some value := by
  unfold field
  cases metadata.lookup key <;> simp

theorem entryRows_eq_ok_iff {s : Store} {rows : List EntryRow} :
    s.entryRows = .ok rows ↔ s.entries = some rows := by
  unfold entryRows
  cases s.entries <;> simp

theorem metadataRows_eq_ok_iff {s : Store} {metadata : List (String × String)} :
    s.metadataRows = .ok metadata ↔ s.metadata = some metadata := by
  unfold metadataRows
  cases s.metadata <;> simp

theorem exists_holds_of_readCurrent {s : Store} {c : Catalog} (h : s.readCurrent = .ok c) :
    ∃ rows metadata entries, s.Holds c rows metadata entries := by
  -- The steps of the reader in turn, each with what it has found.
  unfold readCurrent at h
  obtain ⟨rows, hrows, h⟩ := bind_eq_ok_iff.mp h
  obtain ⟨metadata, hmetadata, h⟩ := bind_eq_ok_iff.mp h
  obtain ⟨version, hversion, h⟩ := bind_eq_ok_iff.mp h
  obtain ⟨time, htime, h⟩ := bind_eq_ok_iff.mp h
  obtain ⟨count, hcount, h⟩ := bind_eq_ok_iff.mp h
  split at h
  · rename_i expected hexpected
    obtain ⟨hash, hhash, h⟩ := bind_eq_ok_iff.mp h
    obtain ⟨entries, hentries, h⟩ := bind_eq_ok_iff.mp h
    dsimp only at h
    split at h
    · cases h
    · rename_i hcounted
      split at h
      · cases h
      · rename_i d hd
        split at h
        · rename_i hhashed
          obtain rfl := Except.ok.inj h
          obtain ⟨haccepted, hinfo, hsorted⟩ := Catalog.ofEntries_eq_ok_iff.mp hd
          rw [not_not] at hcounted
          refine ⟨rows, metadata, entries, ?_⟩
          exact
            { rows_eq := entryRows_eq_ok_iff.mp hrows
              metadata_eq := metadataRows_eq_ok_iff.mp hmetadata
              sourceVersion := ⟨version, field_eq_ok_iff.mp hversion, by rw [hinfo]⟩
              generatedAt := by rw [hinfo]; exact field_eq_ok_iff.mp htime
              count := ⟨count, field_eq_ok_iff.mp hcount, by rw [hexpected, hcounted]⟩
              hash := by rw [hhashed]; exact field_eq_ok_iff.mp hhash
              decodes := hentries
              accepted := haccepted
              schema := by rw [hinfo]
              sorted := hsorted }
        · cases h
  · cases h

theorem Holds.readCurrent_eq {s : Store} {c : Catalog} {rows : List EntryRow}
    {metadata : List (String × String)} {entries : List Entry}
    (h : s.Holds c rows metadata entries) : s.readCurrent = .ok c := by
  obtain ⟨version, hversion, hinfo⟩ := h.sourceVersion
  obtain ⟨count, hcount, hexpected⟩ := h.count
  have hbuilt : Catalog.ofEntries
      { schemaVersion := currentSchema, sourceVersion := .ofString version
        generatedAt := c.info.generatedAt } entries = .ok c := by
    refine Catalog.ofEntries_eq_ok_iff.mpr ⟨h.accepted, ?_, h.sorted⟩
    rw [← hinfo, ← h.schema]
  simp [readCurrent, entryRows_eq_ok_iff.mpr h.rows_eq, metadataRows_eq_ok_iff.mpr h.metadata_eq,
    field_eq_ok_iff.mpr hversion, field_eq_ok_iff.mpr h.generatedAt, field_eq_ok_iff.mpr hcount,
    field_eq_ok_iff.mpr h.hash, h.decodes, hexpected, hbuilt, bind, Except.bind, pure, Except.pure]

theorem readCurrent_eq_ok_iff {s : Store} {c : Catalog} :
    s.readCurrent = .ok c ↔ ∃ rows metadata entries, s.Holds c rows metadata entries := by
  constructor
  · exact exists_holds_of_readCurrent
  · rintro ⟨rows, metadata, entries, h⟩
    exact h.readCurrent_eq

/-- A store can be read exactly when it has the current layout and holds a catalog. -/
theorem read_eq_ok_iff {s : Store} {c : Catalog} :
    s.read = .ok c ↔
      s.userVersion = currentSchema.toNat ∧ ∃ rows metadata entries, s.Holds c rows metadata entries := by
  rw [← readCurrent_eq_ok_iff]
  have hcurrent : (currentSchema.toNat : Int) = 1 := rfl
  unfold read
  split
  · rename_i hneg
    simp only [reduceCtorEq, false_iff, not_and]
    omega
  · split
    · simp only [reduceCtorEq, false_iff, not_and]
      omega
    · split
      · rename_i hother
        simp only [reduceCtorEq, false_iff, not_and]
        exact fun h => absurd h hother
      · rename_i hsame
        rw [not_not] at hsame
        cases s.readCurrent <;> simp [hsame]

theorem read_eq_error {s : Store} {e : StoreError} (h : s.read = .error e) :
    (∃ found, e = .incompatible found) ∨ ∃ cause, e = .corrupt cause := by
  unfold read at h
  split at h
  · exact .inr ⟨_, (Except.error.inj h).symm⟩
  · split at h
    · exact .inr ⟨_, (Except.error.inj h).symm⟩
    · split at h
      · exact .inl ⟨_, (Except.error.inj h).symm⟩
      · split at h
        · cases h
        · exact .inr ⟨_, (Except.error.inj h).symm⟩

end NamelistCatalog.Store
