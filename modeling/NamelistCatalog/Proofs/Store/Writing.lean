import NamelistCatalog.Proofs.Store.Metadata
import NamelistCatalog.Proofs.Store.RoundTrip

namespace NamelistCatalog

namespace EntryRow

theorem add_eq_ok_iff {rows added : List EntryRow} {e : Entry} :
    add rows e = .ok added ↔
      (∀ r ∈ rows, r.foldedName ≠ e.key) ∧ added = rows ++ [ofEntry (nextId rows) e] := by
  constructor
  · intro h
    have hfree : ∀ r ∈ rows, r.foldedName ≠ e.key := by
      intro r hr hkey
      have htaken : (rows.any fun r => r.foldedName == e.key) = true :=
        List.any_eq_true.mpr ⟨r, hr, by simp [hkey]⟩
      simp [add, htaken] at h
    rw [add_eq_ok hfree] at h
    exact ⟨hfree, (Except.ok.inj h).symm⟩
  · rintro ⟨hfree, rfl⟩
    exact add_eq_ok hfree

theorem foldlM_add_eq_ok_iff {rows added : List EntryRow} {entries : List Entry}
    (hdistinct : entries.Pairwise fun a b => a.key ≠ b.key) :
    entries.foldlM add rows = .ok added ↔
      (∀ e ∈ entries, ∀ r ∈ rows, r.foldedName ≠ e.key) ∧
        added = rows ++ ofEntries (nextId rows) entries := by
  have hfree : ∀ {rows : List EntryRow}, entries.foldlM add rows = .ok added →
      ∀ e ∈ entries, ∀ r ∈ rows, r.foldedName ≠ e.key := by
    clear hdistinct
    induction entries with
    | nil => simp
    | cons e rest ih =>
        intro rows h
        rw [List.foldlM_cons] at h
        obtain ⟨next, hnext, h⟩ := bind_eq_ok_iff.mp h
        obtain ⟨hhead, rfl⟩ := add_eq_ok_iff.mp hnext
        refine List.forall_mem_cons.mpr ⟨hhead, ?_⟩
        intro d hd r hr
        exact ih h d hd r (List.mem_append_left _ hr)
  constructor
  · intro h
    have hok := foldlM_add_eq_ok (hfree h) hdistinct
    rw [h] at hok
    exact ⟨hfree h, Except.ok.inj hok⟩
  · rintro ⟨hrows, rfl⟩
    exact foldlM_add_eq_ok hrows hdistinct

end EntryRow

namespace Store

/-- The rows of the table of entries, and none when it is missing. -/
def rows (s : Store) : List EntryRow := s.entries.getD []

/-- The rows of the store, then those of a catalog. -/
def rowsWith (s : Store) (c : Catalog) : List EntryRow :=
  s.rows ++ EntryRow.ofEntries (EntryRow.nextId s.rows) c.entries.toList

/-- The facts in the store, where those of a catalog take the place of earlier ones. -/
def factsWith (s : Store) (c : Catalog) : List (String × String) :=
  putAll (metadataOf c) (s.metadata.getD [])

def append (s : Store) (c : Catalog) : Store :=
  { userVersion := keptVersion c.info.schemaVersion
    entries := some (s.rowsWith c)
    metadata := some (s.factsWith c) }

variable {s written : Store} {c : Catalog}

theorem write_eq_ok_iff :
    s.write c = .ok written ↔
      (∀ e ∈ c.entries.toList, ∀ r ∈ s.rows, r.foldedName ≠ e.key) ∧ written = s.append c := by
  have hrows : s.entries.getD [] = s.rows := rfl
  unfold write
  rw [bind_eq_ok_iff, hrows]
  simp only [EntryRow.foldlM_add_eq_ok_iff (keys_ne c), pure, Except.pure, Except.ok.injEq]
  constructor
  · rintro ⟨added, ⟨hfree, rfl⟩, rfl⟩
    exact ⟨hfree, rfl⟩
  · rintro ⟨hfree, rfl⟩
    exact ⟨_, ⟨hfree, rfl⟩, rfl⟩

/-- The store after the attempt to write a catalog. A write that is refused changes nothing. -/
def attempt (s : Store) (c : Catalog) : Store :=
  match s.write c with
  | .ok written => written
  | .error _ => s

/-- The store after attempts to write catalogs, one after the other. -/
def attemptAll (s : Store) (catalogs : List Catalog) : Store := catalogs.foldl attempt s

/-- Those of the catalogs whose write succeeds. -/
def accepted (s : Store) : List Catalog → List Catalog
  | [] => []
  | c :: rest =>
      match s.write c with
      | .ok written => c :: written.accepted rest
      | .error _ => s.accepted rest

theorem mapM_decode_rowsWith {entries : List Entry} (h : s.rows.mapM EntryRow.decode = .ok entries) :
    (s.rowsWith c).mapM EntryRow.decode =
      .ok (entries ++ c.entries.toList.map Entry.trimVersion) := by
  have hnew := EntryRow.mapM_decode_ofEntries (EntryRow.nextId s.rows) c.entries.toList
  rw [rowsWith, List.mapM_append, h]
  change ((EntryRow.ofEntries _ _).mapM EntryRow.decode >>= fun new => pure (entries ++ new)) = _
  rw [hnew]
  rfl

/-- The rows after attempts to write are those that were there, then those of the catalogs whose write
succeeded. -/
theorem mapM_decode_attemptAll {entries : List Entry}
    (h : s.rows.mapM EntryRow.decode = .ok entries) (catalogs : List Catalog) :
    (s.attemptAll catalogs).rows.mapM EntryRow.decode =
      .ok (entries ++ (s.accepted catalogs).flatMap fun c =>
        c.entries.toList.map Entry.trimVersion) := by
  -- A write that succeeds changes the store and the entries alike.
  induction catalogs generalizing s entries with
  | nil =>
      rw [accepted, List.flatMap_nil, List.append_nil]
      exact h
  | cons c rest ih =>
      change ((s.attempt c).attemptAll rest).rows.mapM _ = _
      rw [accepted, attempt]
      cases hwrite : s.write c with
      | error fault => exact ih h
      | ok written =>
          obtain ⟨-, rfl⟩ := write_eq_ok_iff.mp hwrite
          have hrows : (s.append c).rows.mapM EntryRow.decode = _ := mapM_decode_rowsWith h
          rw [ih hrows, List.flatMap_cons, List.append_assoc]

theorem lookup_factsWith {key value : String} (h : (metadataOf c).lookup key = some value) :
    (s.factsWith c).lookup key = some value := by
  have hkeys : ((metadataOf c).map Prod.fst).Nodup := by
    change [sourceVersionKey, generatedAtKey, entryCountKey, contentHashKey].Nodup
    decide
  rw [factsWith, lookup_putAll hkeys, h]
  rfl

theorem read_append_of_rows_eq_nil (hrows : s.rows = [])
    (hschema : c.info.schemaVersion = currentSchema) (htrimmed : c.HasTrimmedVersions)
    (hsize : c.size ≤ Text.maxCount) : (s.append c).read = .ok c := by
  have hold : s.rows.mapM EntryRow.decode = .ok [] := by
    rw [hrows]
    rfl
  have hdecodes := mapM_decode_rowsWith (c := c) hold
  rw [List.nil_append, Entry.map_trimVersion_eq_self_iff.mpr htrimmed.2] at hdecodes
  refine read_eq_ok_iff.mpr ⟨keptVersion_eq_current_iff.mpr hschema, s.rowsWith c, s.factsWith c,
    c.entries.toList, ?_⟩
  exact
    { rows_eq := rfl
      metadata_eq := rfl
      sourceVersion := ⟨_, lookup_factsWith (lookup_sourceVersion c),
        (SourceVersion.ofString_text_eq_iff.mpr htrimmed.1).symm⟩
      generatedAt := lookup_factsWith (lookup_generatedAt c)
      count := ⟨_, lookup_factsWith (lookup_entryCount c), by
        rw [Text.signedCount?_toString, if_pos hsize, Array.length_toList]
        rfl⟩
      hash := lookup_factsWith (lookup_contentHash c)
      decodes := hdecodes
      accepted := Entry.checkAll_of_listed c.listed
      schema := hschema
      sorted := (Entry.sortByName_of_listed c.listed).symm }

theorem read_append_of_ne_nil {entries : List Entry} (h : s.rows.mapM EntryRow.decode = .ok entries)
    (hne : entries ≠ []) (hschema : c.info.schemaVersion = currentSchema)
    (hsize : c.size ≤ Text.maxCount) :
    (s.append c).read = .error (.corrupt (.wrongCount c.size (entries.length + c.size))) := by
  have hversion := field_eq_ok_iff.mpr (lookup_factsWith (s := s) (lookup_sourceVersion c))
  have htime := field_eq_ok_iff.mpr (lookup_factsWith (s := s) (lookup_generatedAt c))
  have hcount := field_eq_ok_iff.mpr (lookup_factsWith (s := s) (lookup_entryCount c))
  have hhash := field_eq_ok_iff.mpr (lookup_factsWith (s := s) (lookup_contentHash c))
  have hexpected := Text.signedCount?_toString c.size
  rw [if_pos hsize] at hexpected
  have hlength : (entries ++ c.entries.toList.map Entry.trimVersion).length =
      entries.length + c.size := by
    rw [List.length_append, List.length_map, Array.length_toList]
    rfl
  have hcounted : entries.length + c.size ≠ c.size := by
    have hpos := List.length_pos_iff.mpr hne
    omega
  have hcurrent : (s.append c).readCurrent =
      .error (.wrongCount c.size (entries.length + c.size)) := by
    have hrows : (s.append c).entryRows = .ok (s.rowsWith c) := rfl
    have hfacts : (s.append c).metadataRows = .ok (s.factsWith c) := rfl
    simp only [readCurrent, hrows, hfacts, hversion, htime, hcount, hhash, hexpected,
      mapM_decode_rowsWith h, hlength, hcounted, bind, Except.bind, ne_eq, not_false_eq_true, if_true]
    rfl
  have hkept : (s.append c).userVersion = 1 := keptVersion_eq_current_iff.mpr hschema
  simp [read, hkept, hcurrent, currentSchema]

/-- A catalog that is written to a store on which only writes were tried reads back as it is when no
catalog that was written before has left a row. Otherwise the rows are more than it counts, and reading
fails. -/
theorem read_write_attemptAll (catalogs : List Catalog) (c : Catalog)
    (hschema : c.info.schemaVersion = currentSchema) (htrimmed : c.HasTrimmedVersions)
    (hsize : c.size ≤ Text.maxCount)
    (hwrite : (({} : Store).attemptAll catalogs).write c = .ok written) :
    ((∀ d ∈ ({} : Store).accepted catalogs, d.size = 0) → written.read = .ok c) ∧
      ((∃ d ∈ ({} : Store).accepted catalogs, d.size ≠ 0) →
        written.read = .error (.corrupt
          (.wrongCount c.size
            (((({} : Store).accepted catalogs).flatMap fun d => d.entries.toList).length + c.size)))) := by
  have hempty : ({} : Store).rows.mapM EntryRow.decode = .ok [] := rfl
  have hdecodes := mapM_decode_attemptAll hempty catalogs
  rw [List.nil_append] at hdecodes
  obtain ⟨-, rfl⟩ := write_eq_ok_iff.mp hwrite
  have hlength : ∀ d : Catalog, (d.entries.toList.map Entry.trimVersion).length = d.size := by
    intro d
    rw [List.length_map, Array.length_toList]
    rfl
  constructor
  · intro hnone
    have hleft : (({} : Store).accepted catalogs).flatMap
        (fun d => d.entries.toList.map Entry.trimVersion) = [] := by
      refine List.flatMap_eq_nil_iff.mpr ?_
      intro d hd
      exact List.eq_nil_of_length_eq_zero ((hlength d).trans (hnone d hd))
    rw [hleft] at hdecodes
    have hrows := List.forall₂_nil_right_iff.mp (mapM_eq_ok_iff.mp hdecodes)
    exact read_append_of_rows_eq_nil hrows hschema htrimmed hsize
  · rintro ⟨d, hd, hsome⟩
    have hleft : (({} : Store).accepted catalogs).flatMap
        (fun d => d.entries.toList.map Entry.trimVersion) ≠ [] := by
      intro hnil
      have hlost := congrArg List.length (List.flatMap_eq_nil_iff.mp hnil d hd)
      rw [hlength, List.length_nil] at hlost
      exact hsome hlost
    rw [read_append_of_ne_nil hdecodes hleft hschema hsize, List.length_flatMap, List.length_flatMap]
    simp only [List.length_map]

/-- A catalog of one entry, documenting the version of that entry. -/
def ofEntry (e : Entry) (h : e.check = none) : Catalog :=
  { info := { schemaVersion := currentSchema, sourceVersion := e.version, generatedAt := "now" }
    entries := #[e]
    listed := by
      refine ⟨?_, List.pairwise_singleton _ _⟩
      intro d hd
      rw [List.mem_singleton.mp hd]
      exact h }

def firstCatalog : Catalog := ofEntry { name := "a", version := ⟨"1"⟩ } (by decide +kernel)

def secondCatalog : Catalog := ofEntry { name := "b", version := ⟨"1"⟩ } (by decide +kernel)

def emptyCatalog : Catalog :=
  { info := { schemaVersion := currentSchema, sourceVersion := ⟨""⟩, generatedAt := "now" }
    entries := #[]
    listed := ⟨by simp, .nil⟩ }

theorem attemptAll_singleton (c : Catalog) : ({} : Store).attemptAll [c] = ofCatalog c := by
  change attempt {} c = _
  rw [attempt, write_empty]

theorem write_secondCatalog :
    (({} : Store).attemptAll [firstCatalog]).write secondCatalog =
      .ok ((ofCatalog firstCatalog).append secondCatalog) := by
  rw [attemptAll_singleton]
  refine write_eq_ok_iff.mpr ⟨?_, rfl⟩
  decide +kernel

theorem hasTrimmedVersions_firstCatalog : firstCatalog.HasTrimmedVersions := by decide +kernel

theorem hasTrimmedVersions_secondCatalog : secondCatalog.HasTrimmedVersions := by decide +kernel

theorem read_write_attemptAll_twoCatalogs :
    secondCatalog.info.schemaVersion = currentSchema ∧ secondCatalog.HasTrimmedVersions ∧
      (∃ written, (({} : Store).attemptAll [emptyCatalog]).write secondCatalog = .ok written ∧
        written.read = .ok secondCatalog) ∧
      ∃ written, (({} : Store).attemptAll [firstCatalog, firstCatalog]).write secondCatalog =
          .ok written ∧
        written.read = .error (.corrupt (.wrongCount 1 2)) := by
  have hsize : secondCatalog.size ≤ Text.maxCount := by decide
  refine ⟨rfl, hasTrimmedVersions_secondCatalog, ?_, ?_⟩
  · have hwrite : (({} : Store).attemptAll [emptyCatalog]).write secondCatalog =
        .ok ((ofCatalog emptyCatalog).append secondCatalog) := by
      rw [attemptAll_singleton]
      exact write_eq_ok_iff.mpr ⟨by decide +kernel, rfl⟩
    have haccepted : ({} : Store).accepted [emptyCatalog] = [emptyCatalog] := by
      simp only [accepted, write_empty]
    refine ⟨_, hwrite, (read_write_attemptAll [emptyCatalog] secondCatalog rfl
      hasTrimmedVersions_secondCatalog hsize hwrite).1 ?_⟩
    rw [haccepted]
    decide
  · -- The second attempt to write the first catalog is refused.
    have hrefused : (ofCatalog firstCatalog).write firstCatalog = .error .foldedNameTaken := rfl
    have hwrite : (({} : Store).attemptAll [firstCatalog, firstCatalog]).write secondCatalog =
        .ok ((ofCatalog firstCatalog).append secondCatalog) := by
      have htwice : ({} : Store).attemptAll [firstCatalog, firstCatalog] =
          ({} : Store).attemptAll [firstCatalog] := by
        rw [attemptAll_singleton]
        change attempt (({} : Store).attemptAll [firstCatalog]) firstCatalog = _
        rw [attemptAll_singleton, attempt, hrefused]
      rw [htwice]
      exact write_secondCatalog
    have haccepted : ({} : Store).accepted [firstCatalog, firstCatalog] = [firstCatalog] := by
      simp only [accepted, write_empty, hrefused]
    have hread := (read_write_attemptAll [firstCatalog, firstCatalog] secondCatalog rfl
      hasTrimmedVersions_secondCatalog hsize hwrite).2
    rw [haccepted] at hread
    exact ⟨_, hwrite, hread ⟨firstCatalog, List.mem_singleton_self _, by decide⟩⟩

/-- A write that succeeds may leave a store that does not read: the rows of an earlier catalog stay. -/
theorem not_forall_read_write_attemptAll :
    ¬∀ (catalogs : List Catalog) (c : Catalog) (written : Store),
      (∀ d ∈ c :: catalogs, d.info.schemaVersion = currentSchema ∧ d.HasTrimmedVersions) →
        (({} : Store).attemptAll catalogs).write c = .ok written → written.read = .ok c := by
  intro h
  have hread := h [firstCatalog] secondCatalog _ ?_ write_secondCatalog
  · have hrows : (ofCatalog firstCatalog).rows.mapM EntryRow.decode =
        .ok (firstCatalog.entries.toList.map Entry.trimVersion) :=
      EntryRow.mapM_decode_ofEntries 1 firstCatalog.entries.toList
    have hcorrupt := read_append_of_ne_nil hrows (by decide) (c := secondCatalog) rfl (by decide)
    rw [hcorrupt] at hread
    cases hread
  · intro d hd
    simp only [List.mem_cons, List.not_mem_nil, or_false] at hd
    rcases hd with rfl | rfl
    · exact ⟨rfl, hasTrimmedVersions_secondCatalog⟩
    · exact ⟨rfl, hasTrimmedVersions_firstCatalog⟩

end Store

end NamelistCatalog
