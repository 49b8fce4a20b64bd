import NamelistCatalog.Proofs.Store.Metadata
import NamelistCatalog.Proofs.Store.NulFree
import NamelistCatalog.Proofs.Store.RoundTrip

/-!
Edits of a written store. As long as the recorded content hash and the time of the build stay as they
are, a store that was edited reads as the catalog that was written or not at all.
-/

namespace NamelistCatalog

namespace Edit

/-- The values that an edit puts into the tables. -/
def values : Edit → List CellValue
  | .setMetadata _ value => [value]
  | .update _ _ value => [value]
  | .insertRow cells => cells.map Prod.snd
  | .setUserVersion _ | .deleteMetadata _ | .deleteRow _ | .dropTable _ => []

/-- The edit does not touch the value of a key in the table of facts by itself. -/
def Spares (key : String) : Edit → Prop
  | .setMetadata changed _ => changed ≠ key
  | .deleteMetadata changed => changed ≠ key
  | .setUserVersion _ | .update _ _ _ | .deleteRow _ | .insertRow _ | .dropTable _ => True

/-- The edit spares the content hash and the time of the build, and no value that it puts into the
tables holds the character that ends a field. -/
structure LeavesSeal (e : Edit) : Prop where
  hash : e.Spares Store.contentHashKey
  time : e.Spares Store.generatedAtKey
  values : ∀ v ∈ e.values, v.NulFree

end Edit

namespace Store

/-- The store after an edit. An edit that is refused changes nothing. -/
def tamper (s : Store) (e : Edit) : Store :=
  match s.edit e with
  | .ok (_, changed) => changed
  | .error _ => s

/-- The store after edits, one after the other. -/
def tamperAll (s : Store) (edits : List Edit) : Store := edits.foldl tamper s

/-- What edits that leave the seal of a catalog cannot change: the content hash and the time of the
build are those of the catalog, and no text that is read holds the character that ends a field. -/
structure Sealed (c : Catalog) (s : Store) : Prop where
  hash : ∀ m, s.metadata = some m → m.lookup contentHashKey = some c.contentHash
  time : ∀ m, s.metadata = some m → m.lookup generatedAtKey = some c.info.generatedAt
  version : ∀ m, s.metadata = some m → ∀ v, m.lookup sourceVersionKey = some v → Text.NulFree v
  rows : ∀ rows, s.entries = some rows → ∀ r ∈ rows, r.NulFree

theorem editableEntries_eq_ok_iff {s : Store} {rows : List EntryRow} :
    s.editableEntries = .ok rows ↔ s.entries = some rows := by
  unfold editableEntries
  cases s.entries <;> simp

theorem editableMetadata_eq_ok_iff {s : Store} {metadata : List (String × String)} :
    s.editableMetadata = .ok metadata ↔ s.metadata = some metadata := by
  unfold editableMetadata
  cases s.metadata <;> simp

variable {c : Catalog} {s changed : Store} {n : Nat}

theorem Sealed.setEntries (h : Sealed c s) {rows : List EntryRow} (hrows : ∀ r ∈ rows, r.NulFree) :
    Sealed c { s with entries := some rows } :=
  { h with
    rows := by
      intro found hfound
      obtain rfl := Option.some.inj hfound
      exact hrows }

theorem Sealed.changeMetadata (h : Sealed c s) {m m' : List (String × String)} {key : String}
    (hm : s.metadata = some m) (hhash : key ≠ contentHashKey) (htime : key ≠ generatedAtKey)
    (hkept : ∀ other, key ≠ other → m'.lookup other = m.lookup other)
    (hvalue : ∀ v, m'.lookup key = some v → Text.NulFree v) :
    Sealed c { s with metadata := some m' } :=
  { h with
    hash := by
      intro found hfound
      obtain rfl := Option.some.inj hfound
      rw [hkept contentHashKey hhash]
      exact h.hash m hm
    time := by
      intro found hfound
      obtain rfl := Option.some.inj hfound
      rw [hkept generatedAtKey htime]
      exact h.time m hm
    version := by
      intro found hfound v hv
      obtain rfl := Option.some.inj hfound
      by_cases hkey : key = sourceVersionKey
      · rw [← hkey] at hv
        exact hvalue v hv
      · rw [hkept sourceVersionKey hkey] at hv
        exact h.version m hm v hv }

theorem Sealed.update (h : Sealed c s) {row : String} {column : Column} {value : CellValue}
    (hvalue : value.NulFree) (hedit : s.update row column value = .ok (n, changed)) :
    Sealed c changed := by
  unfold Store.update at hedit
  obtain ⟨rows, hrows, hedit⟩ := bind_eq_ok_iff.mp hedit
  have hold := h.rows rows (editableEntries_eq_ok_iff.mp hrows)
  split at hedit
  · obtain ⟨-, rfl⟩ := Prod.mk.inj (Except.ok.inj hedit)
    exact h
  · rename_i old hfind
    obtain ⟨r, hr, hedit⟩ := bind_eq_ok_iff.mp hedit
    have hnew : r.NulFree := (hold old (List.mem_of_find?_eq_some hfind)).set hvalue hr
    split at hedit
    · cases hedit
    · obtain ⟨-, rfl⟩ := Prod.mk.inj (Except.ok.inj hedit)
      apply h.setEntries
      intro found hfound
      obtain ⟨other, hother, rfl⟩ := List.mem_map.mp hfound
      split
      · exact hnew
      · exact hold other hother

theorem Sealed.insertRow (h : Sealed c s) {cells : List (Column × CellValue)}
    (hcells : ∀ v ∈ cells.map Prod.snd, v.NulFree)
    (hedit : s.edit (.insertRow cells) = .ok (n, changed)) : Sealed c changed := by
  obtain ⟨rows, hrows, hedit⟩ := bind_eq_ok_iff.mp hedit
  obtain ⟨r, hr, hedit⟩ := bind_eq_ok_iff.mp hedit
  split at hedit
  · cases hedit
  · obtain ⟨-, rfl⟩ := Prod.mk.inj (Except.ok.inj hedit)
    apply h.setEntries
    intro found hfound
    rcases List.mem_append.mp hfound with hfound | hfound
    · exact h.rows rows (editableEntries_eq_ok_iff.mp hrows) found hfound
    · rw [List.mem_singleton.mp hfound]
      exact EntryRow.nulFree_ofCells hcells hr

theorem Sealed.dropTable (h : Sealed c s) {table : Table}
    (hedit : s.edit (.dropTable table) = .ok (n, changed)) : Sealed c changed := by
  cases table with
  | entries =>
      obtain ⟨_, -, hedit⟩ := bind_eq_ok_iff.mp hedit
      obtain ⟨-, rfl⟩ := Prod.mk.inj (Except.ok.inj hedit)
      exact { h with rows := fun _ hrows => by cases hrows }
  | metadata =>
      obtain ⟨_, -, hedit⟩ := bind_eq_ok_iff.mp hedit
      obtain ⟨-, rfl⟩ := Prod.mk.inj (Except.ok.inj hedit)
      exact
        { hash := fun _ hm => by cases hm
          time := fun _ hm => by cases hm
          version := fun _ hm => by cases hm
          rows := h.rows }

/-- One edit that leaves the seal keeps the store sealed. -/
theorem Sealed.edit (h : Sealed c s) {e : Edit} (he : e.LeavesSeal)
    (hedit : s.edit e = .ok (n, changed)) : Sealed c changed := by
  cases e with
  | setUserVersion version =>
      obtain ⟨-, rfl⟩ := Prod.mk.inj (Except.ok.inj hedit)
      exact { h with }
  | setMetadata key value =>
      obtain ⟨m, hm, hedit⟩ := bind_eq_ok_iff.mp hedit
      rw [editableMetadata_eq_ok_iff] at hm
      split at hedit
      · cases hedit
      · rename_i text htext
        obtain ⟨-, rfl⟩ := Prod.mk.inj (Except.ok.inj hedit)
        refine h.changeMetadata hm he.hash he.time (fun _ => lookup_putMetadata_ne) ?_
        intro v hv
        rw [lookup_putMetadata_self, Option.some.injEq] at hv
        rw [← hv]
        exact (he.values value List.mem_cons_self).toText? htext
  | deleteMetadata key =>
      obtain ⟨m, hm, hedit⟩ := bind_eq_ok_iff.mp hedit
      rw [editableMetadata_eq_ok_iff] at hm
      obtain ⟨-, rfl⟩ := Prod.mk.inj (Except.ok.inj hedit)
      refine h.changeMetadata hm he.hash he.time (fun _ => Association.lookup_filter_ne) ?_
      intro v hv
      rw [Association.lookup_filter_self] at hv
      cases hv
  | update row column value => exact h.update (he.values value List.mem_cons_self) hedit
  | deleteRow row =>
      obtain ⟨rows, hrows, hedit⟩ := bind_eq_ok_iff.mp hedit
      obtain ⟨-, rfl⟩ := Prod.mk.inj (Except.ok.inj hedit)
      apply h.setEntries
      intro r hr
      exact h.rows rows (editableEntries_eq_ok_iff.mp hrows) r (List.mem_of_mem_filter hr)
  | insertRow cells => exact h.insertRow he.values hedit
  | dropTable table => exact h.dropTable hedit

theorem Sealed.tamper (h : Sealed c s) {e : Edit} (he : e.LeavesSeal) : Sealed c (s.tamper e) := by
  unfold Store.tamper
  split
  · rename_i hedit
    exact h.edit he hedit
  · exact h

theorem Sealed.tamperAll (h : Sealed c s) {edits : List Edit} (hedits : ∀ e ∈ edits, e.LeavesSeal) :
    Sealed c (s.tamperAll edits) := by
  -- The store changes from step to step, the catalog that it is sealed for does not.
  induction edits generalizing s with
  | nil => exact h
  | cons e rest ih =>
      rw [List.forall_mem_cons] at hedits
      exact ih (h.tamper hedits.1) hedits.2

theorem sealed_ofCatalog (hc : c.NulFree) : Sealed c (ofCatalog c) where
  hash := by
    intro m hm
    obtain rfl := Option.some.inj hm
    exact lookup_contentHash c
  time := by
    intro m hm
    obtain rfl := Option.some.inj hm
    exact lookup_generatedAt c
  version := by
    intro m hm v hv
    obtain rfl := Option.some.inj hm
    rw [lookup_sourceVersion, Option.some.injEq] at hv
    rw [← hv]
    exact hc.1
  rows := by
    intro rows hrows r hr
    obtain rfl := Option.some.inj hrows
    obtain ⟨id, e, he, rfl⟩ := EntryRow.exists_of_mem_ofEntries hr
    rw [EntryRow.NulFree, EntryRow.texts_ofEntry]
    exact hc.2 e (Array.mem_toList_iff.mp he)

/-- A sealed store reads as a catalog with the seal of the one that it was made for. -/
theorem Sealed.of_read (h : Sealed c s) {d : Catalog} (hread : s.read = .ok d) :
    d.NulFree ∧ d.info.generatedAt = c.info.generatedAt ∧ d.contentHash = c.contentHash := by
  obtain ⟨-, rows, metadata, entries, hd⟩ := read_eq_ok_iff.mp hread
  have htime := hd.generatedAt
  have hhash := hd.hash
  rw [h.time metadata hd.metadata_eq, Option.some.injEq] at htime
  rw [h.hash metadata hd.metadata_eq, Option.some.injEq] at hhash
  refine ⟨⟨?_, ?_⟩, htime.symm, hhash.symm⟩
  · obtain ⟨v, hv, hversion⟩ := hd.sourceVersion
    rw [hversion]
    exact Text.NulFree.ofString (h.version metadata hd.metadata_eq v hv)
  · intro e he
    rw [← Array.mem_toList_iff, hd.sorted] at he
    have hlisted : e ∈ entries := (Entry.sortByName_perm entries).mem_iff.mp he
    obtain ⟨r, hr, hdecode⟩ := EntryRow.exists_mem_of_mapM_decode hd.decodes hlisted
    exact (h.rows rows hd.rows_eq r hr).decode hdecode

theorem Sealed.eq_of_read (h : Sealed c s) (hc : c.NulFree) {d : Catalog}
    (hsha : ¬Sha256.Collide d.hashedBytes c.hashedBytes) (hread : s.read = .ok d) : d = c := by
  obtain ⟨hd, htime, hhash⟩ := h.of_read hread
  exact Catalog.eq_of_hashedBytes_eq hd hc htime (Catalog.hashedBytes_eq_of_contentHash_eq hhash hsha)

/-- A catalog without the character that ends a field can be written to an empty store, and after any
edits that leave its seal the store reads as that catalog or reading fails, unless SHA-256 collides on
the bytes of what is read and of what was written. -/
theorem read_tamperAll (c : Catalog) (hc : c.NulFree) :
    ∃ s, ({} : Store).write c = .ok s ∧
      ∀ edits : List Edit, (∀ e ∈ edits, e.LeavesSeal) →
        (∀ d, (s.tamperAll edits).read = .ok d → ¬Sha256.Collide d.hashedBytes c.hashedBytes) →
          (s.tamperAll edits).read = .ok c ∨
            (∃ found, (s.tamperAll edits).read = .error (.incompatible found)) ∨
            ∃ cause, (s.tamperAll edits).read = .error (.corrupt cause) := by
  refine ⟨ofCatalog c, write_empty c, ?_⟩
  intro edits hedits hsha
  have hsealed : Sealed c ((ofCatalog c).tamperAll edits) := (sealed_ofCatalog hc).tamperAll hedits
  cases hread : ((ofCatalog c).tamperAll edits).read with
  | ok d =>
      rw [hsealed.eq_of_read hc (hsha d hread) hread]
      exact .inl rfl
  | error e =>
      right
      rcases read_eq_error hread with ⟨found, rfl⟩ | ⟨cause, rfl⟩
      · exact .inl ⟨found, rfl⟩
      · exact .inr ⟨cause, rfl⟩

/-- A catalog of one record. -/
def plainCatalog : Catalog :=
  { info := { schemaVersion := currentSchema, sourceVersion := ⟨"1"⟩, generatedAt := "now" }
    entries := #[{ name := "ab", summary := "c", version := ⟨"1"⟩ }]
    listed := by
      refine ⟨?_, List.pairwise_singleton _ _⟩
      decide +kernel }

/-- Edits that rename the record along with its folded name and keep the letter they take from the
name in the text beside it. -/
def shiftName : List Edit :=
  [.update "ab" .name (.text "A"), .update "ab" .foldedName (.text "a"),
    .update "a" .namelist (.text "b"), .setMetadata entryCountKey (.number 1)]

theorem isOk_read_shiftName : ((ofCatalog plainCatalog).tamperAll shiftName).read.isOk = false := by
  decide +kernel

theorem read_tamperAll_shiftName :
    plainCatalog.NulFree ∧ ∃ s, ({} : Store).write plainCatalog = .ok s ∧
      (∀ e ∈ shiftName, e.LeavesSeal) ∧
      ((∃ found, (s.tamperAll shiftName).read = .error (.incompatible found)) ∨
        ∃ cause, (s.tamperAll shiftName).read = .error (.corrupt cause)) := by
  have hc : plainCatalog.NulFree := by
    refine ⟨by decide, ?_⟩
    intro e he
    obtain rfl := List.mem_singleton.mp (Array.mem_toList_iff.mpr he)
    unfold Entry.NulFree
    decide
  have hedits : ∀ e ∈ shiftName, e.LeavesSeal := by
    have hhash : entryCountKey ≠ contentHashKey := by decide
    have htime : entryCountKey ≠ generatedAtKey := by decide
    simp only [shiftName, List.forall_mem_cons]
    refine ⟨⟨trivial, trivial, ?_⟩, ⟨trivial, trivial, ?_⟩, ⟨trivial, trivial, ?_⟩,
      ⟨hhash, htime, ?_⟩, by simp⟩
    all_goals
      intro v hv s hs
      obtain rfl := List.mem_singleton.mp hv
      cases hs
    all_goals decide
  obtain ⟨s, hwrite, hread⟩ := read_tamperAll plainCatalog hc
  obtain rfl : ofCatalog plainCatalog = s := Except.ok.inj ((write_empty plainCatalog).symm.trans hwrite)
  have hlost : ∀ d, ((ofCatalog plainCatalog).tamperAll shiftName).read ≠ .ok d := by
    intro d hd
    have hisOk := isOk_read_shiftName
    rw [hd] at hisOk
    cases hisOk
  refine ⟨hc, ofCatalog plainCatalog, hwrite, hedits, ?_⟩
  rcases hread shiftName hedits (fun d hd => absurd hd (hlost d)) with hsame | herror
  · exact absurd hsame (hlost plainCatalog)
  · exact herror

end Store

end NamelistCatalog
