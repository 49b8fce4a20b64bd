import NamelistCatalog.Proofs.Catalog.Query
import NamelistCatalog.Proofs.Store.Reading

namespace NamelistCatalog

namespace EntryRow

/-- The row is that of an entry, and this is the entry that comes back. -/
structure StandsFor (r : EntryRow) (e : Entry) : Prop where
  foldedName : r.foldedName = e.key
  columns : ∃ raw, r = ofEntry r.id raw ∧ e = raw.trimVersion

theorem standsFor_iff {r : EntryRow} {e : Entry} : r.StandsFor e ↔ r.decode = .ok e := by
  constructor
  · exact fun h => decode_eq_ok_iff.mpr h.columns
  · intro h
    obtain ⟨raw, hraw, rfl⟩ := decode_eq_ok_iff.mp h
    refine ⟨?_, raw, hraw, rfl⟩
    rw [hraw, Entry.key_trimVersion]
    rfl

theorem forall₂_standsFor_iff {rows : List EntryRow} {entries : List Entry} :
    List.Forall₂ StandsFor rows entries ↔ rows.mapM decode = .ok entries := by
  have hsame : StandsFor = fun r e => r.decode = .ok e := by
    funext r e
    exact propext standsFor_iff
  rw [mapM_eq_ok_iff, hsame]

end EntryRow

namespace Store

/-- What is stored is the catalog `d`: a row for each of its entries and no other row, and the facts
about it. -/
structure ReadsAs (s : Store) (d : Catalog) : Prop where
  userVersion : s.userVersion = 1
  rows : ∃ rows entries, s.entries = some rows ∧ List.Forall₂ EntryRow.StandsFor rows entries ∧
    entries.Perm d.entries.toList
  facts : ∃ facts, s.metadata = some facts ∧
    (∃ version, facts.lookup sourceVersionKey = some version ∧
      d.info.sourceVersion = .ofString version) ∧
    facts.lookup generatedAtKey = some d.info.generatedAt ∧
    (∃ count, facts.lookup entryCountKey = some count ∧
      Text.signedCount? count.toList = some d.size) ∧
    facts.lookup contentHashKey = some d.contentHash
  schema : d.info.schemaVersion = 1
  names : ∀ e ∈ d.entries.toList, Name.isValid e.name = true
  summaries : ∀ e ∈ d.entries.toList, '\n' ∉ e.summary.toList
  sorted : d.entries.toList.Pairwise fun a b => a.key < b.key

variable {s : Store} {d : Catalog}

theorem Holds.readsAs {rows : List EntryRow} {metadata : List (String × String)}
    {entries : List Entry} (h : s.Holds d rows metadata entries) (hversion : s.userVersion = 1) :
    s.ReadsAs d where
  userVersion := hversion
  rows := by
    refine ⟨rows, entries, h.rows_eq, EntryRow.forall₂_standsFor_iff.mpr h.decodes, ?_⟩
    rw [h.sorted]
    exact (Entry.sortByName_perm entries).symm
  facts := by
    obtain ⟨count, hcount, hlength⟩ := h.count
    refine ⟨metadata, h.metadata_eq, h.sourceVersion, h.generatedAt, ⟨count, hcount, ?_⟩, h.hash⟩
    rw [hlength, ← (Entry.sortByName_perm entries).length_eq, ← h.sorted, Array.length_toList]
    rfl
  schema := h.schema
  names := fun e he => (Entry.check_eq_none_iff.mp (d.listed.1 e he)).1
  summaries := fun e he => (Entry.check_eq_none_iff.mp (d.listed.1 e he)).2
  sorted := d.listed.2

theorem ReadsAs.exists_holds (h : s.ReadsAs d) :
    ∃ rows metadata entries, s.Holds d rows metadata entries := by
  obtain ⟨rows, entries, hrows, hstand, hperm⟩ := h.rows
  obtain ⟨metadata, hmetadata, hsource, htime, ⟨count, hcount, hsize⟩, hhash⟩ := h.facts
  have hlisted := Entry.checkAll_of_listed d.listed
  refine ⟨rows, metadata, entries, ?_⟩
  exact
    { rows_eq := hrows
      metadata_eq := hmetadata
      sourceVersion := hsource
      generatedAt := htime
      count := ⟨count, hcount, by rw [hsize, hperm.length_eq, Array.length_toList]; rfl⟩
      hash := hhash
      decodes := EntryRow.forall₂_standsFor_iff.mp hstand
      accepted := Entry.checkAll_perm hperm hlisted
      schema := h.schema
      sorted := by rw [Entry.sortByName_perm_eq hperm hlisted, Entry.sortByName_of_listed d.listed] }

theorem readsAs_iff : s.ReadsAs d ↔ s.read = .ok d := by
  rw [read_eq_ok_iff]
  constructor
  · exact fun h => ⟨h.userVersion, h.exists_holds⟩
  · rintro ⟨hversion, rows, metadata, entries, h⟩
    exact h.readsAs hversion

/-- The layout version is looked at before any table: the store is incompatible exactly when that
version is another than the current one, and of no version that could be missing or broken. -/
theorem read_eq_incompatible_iff {found : Nat} :
    s.read = .error (.incompatible found) ↔
      0 < s.userVersion ∧ s.userVersion ≠ 1 ∧ s.userVersion = found := by
  have hcurrent : (currentSchema.toNat : Int) = 1 := rfl
  unfold read
  split
  · simp only [Except.error.injEq, reduceCtorEq, false_iff]
    omega
  · split
    · simp only [Except.error.injEq, reduceCtorEq, false_iff]
      omega
    · split
      · rw [Except.error.injEq, StoreError.incompatible.injEq]
        omega
      · rename_i hsame
        rw [not_not] at hsame
        cases s.readCurrent <;> simp <;> omega

/-- Reading a store fails as incompatible exactly when its layout version is positive and not the
current one, whatever its tables hold. Any other failure is corruption, and the store reads as a
catalog exactly when what is stored is that catalog. -/
theorem read_classifies (s : Store) :
    ((∃ found, s.read = .error (.incompatible found)) ↔ 0 < s.userVersion ∧ s.userVersion ≠ 1) ∧
      (∀ e, s.read = .error e →
        (∃ found : Nat, e = .incompatible found ∧ s.userVersion = found) ∨ ∃ cause, e = .corrupt cause) ∧
      ∀ d, s.read = .ok d ↔ s.ReadsAs d := by
  refine ⟨?_, ?_, fun d => readsAs_iff.symm⟩
  · simp only [read_eq_incompatible_iff]
    constructor
    · rintro ⟨found, hpos, hne, -⟩
      exact ⟨hpos, hne⟩
    · rintro ⟨hpos, hne⟩
      exact ⟨s.userVersion.toNat, hpos, hne, by omega⟩
  · intro e he
    rcases read_eq_error he with ⟨found, rfl⟩ | hcorrupt
    · exact .inl ⟨found, rfl, (read_eq_incompatible_iff.mp he).2.2⟩
    · exact .inr hcorrupt

end Store

end NamelistCatalog
