import NamelistCatalog.Proofs.Store.Tampering
import NamelistCatalog.Proofs.Store.Writing

namespace NamelistCatalog

/-- What may happen to a store: a catalog is written to it, or someone edits its tables. -/
inductive Change where
  | write (c : Catalog)
  | edit (e : Edit)

namespace EntryRow

theorem id_of_set {r changed : EntryRow} {column : Column} {value : CellValue}
    (h : r.set column value = .ok changed) : changed.id = r.id := by
  unfold set at h
  cases column with
  | ord | defaultValue =>
      obtain rfl := Except.ok.inj h
      rfl
  | name | foldedName | namelist | valueType | dim | summary | doc | version | origin =>
      obtain ⟨_, -, rfl⟩ := map_eq_ok_iff.mp h
      rfl

theorem id_of_foldlM_set {r changed : EntryRow} {columns : List Column} {value : Column → CellValue}
    (h : columns.foldlM (fun r column => r.set column (value column)) r = .ok changed) :
    changed.id = r.id := by
  induction columns generalizing r with
  | nil =>
      obtain rfl := Except.ok.inj h
      rfl
  | cons column rest ih =>
      rw [List.foldlM_cons] at h
      obtain ⟨next, hnext, h⟩ := bind_eq_ok_iff.mp h
      rw [ih h, id_of_set hnext]

theorem id_of_ofCells {id : Nat} {cells : List (Column × CellValue)} {r : EntryRow}
    (h : ofCells id cells = .ok r) : r.id = id := id_of_foldlM_set h

theorem id_lt_nextId {rows : List EntryRow} {r : EntryRow} (h : r ∈ rows) : r.id < nextId rows := by
  have hmax : ∀ (ids : List Nat) (least n : Nat), n ∈ ids ∨ n ≤ least → n ≤ ids.foldl max least := by
    intro ids
    induction ids with
    | nil => simp
    | cons first rest ih =>
        intro least n hn
        rw [List.mem_cons] at hn
        apply ih
        rcases hn with (rfl | hn) | hn
        · exact .inr (Nat.le_max_right _ _)
        · exact .inl hn
        · exact .inr (Nat.le_trans hn (Nat.le_max_left _ _))
  have hle := hmax (rows.map EntryRow.id) 0 r.id (.inl (List.mem_map_of_mem h))
  rw [nextId]
  omega

theorem id_of_mem_ofEntries {id : Nat} {entries : List Entry} {r : EntryRow}
    (h : r ∈ ofEntries id entries) : id ≤ r.id := by
  induction entries generalizing id with
  | nil => cases h
  | cons e rest ih =>
      rcases List.mem_cons.mp h with rfl | h
      · exact Nat.le_refl _
      · exact Nat.le_trans (Nat.le_succ id) (ih h)

theorem pairwise_id_ofEntries (id : Nat) (entries : List Entry) :
    (ofEntries id entries).Pairwise fun a b => a.id < b.id := by
  induction entries generalizing id with
  | nil => exact .nil
  | cons e rest ih => exact .cons (fun _ hr => id_of_mem_ofEntries hr) (ih (id + 1))

theorem map_foldedName_ofEntries (id : Nat) (entries : List Entry) :
    (ofEntries id entries).map foldedName = entries.map Entry.key := by
  induction entries generalizing id with
  | nil => rfl
  | cons e rest ih => rw [ofEntries, List.map_cons, List.map_cons, ih]; rfl

/-- The rows of a table are in the order of their places, and each has a folded name of its own. -/
structure Ordered (rows : List EntryRow) : Prop where
  ids : rows.Pairwise fun a b => a.id < b.id
  names : (rows.map foldedName).Nodup

theorem Ordered.filter {rows : List EntryRow} (h : Ordered rows) (p : EntryRow → Bool) :
    Ordered (rows.filter p) where
  ids := h.ids.sublist List.filter_sublist
  names := h.names.sublist (List.filter_sublist.map _)

theorem Ordered.append {rows new : List EntryRow} (h : Ordered rows) (hnew : Ordered new)
    (hids : ∀ a ∈ rows, ∀ b ∈ new, a.id < b.id)
    (hnames : ∀ a ∈ rows, ∀ b ∈ new, a.foldedName ≠ b.foldedName) : Ordered (rows ++ new) where
  ids := List.pairwise_append.mpr ⟨h.ids, hnew.ids, hids⟩
  names := by
    rw [List.map_append, List.nodup_append]
    refine ⟨h.names, hnew.names, ?_⟩
    intro a ha b hb
    obtain ⟨r, hr, rfl⟩ := List.mem_map.mp ha
    obtain ⟨r', hr', rfl⟩ := List.mem_map.mp hb
    exact hnames r hr r' hr'

theorem Ordered.singleton (r : EntryRow) : Ordered [r] :=
  ⟨List.pairwise_singleton _ _, List.nodup_singleton _⟩

theorem foldedName_ne_of_isTaken {rows : List EntryRow} {r : EntryRow} (h : isTaken rows r = false)
    {other : EntryRow} (hother : other ∈ rows) (hid : other.id ≠ r.id) :
    other.foldedName ≠ r.foldedName := by
  have hfree := List.any_eq_false.mp h other hother
  simpa [hid] using hfree

theorem Ordered.replace {rows : List EntryRow} (h : Ordered rows) {r : EntryRow}
    (hfree : isTaken rows r = false) :
    Ordered (rows.map fun other => if other.id == r.id then r else other) := by
  have hid : ∀ other : EntryRow, (if other.id == r.id then r else other).id = other.id := by
    intro other
    split
    · rename_i hsame
      exact (beq_iff_eq.mp hsame).symm
    · rfl
  refine ⟨?_, ?_⟩
  · rw [List.pairwise_map]
    refine h.ids.imp ?_
    intro a b hlt
    rwa [hid, hid]
  · rw [List.map_map, List.Nodup, List.pairwise_map]
    have hboth := h.ids.and (List.pairwise_map.mp h.names)
    refine hboth.imp_of_mem ?_
    rintro a b ha hb ⟨hlt, hne⟩
    simp only [Function.comp_apply]
    by_cases haid : a.id = r.id
    · have hbid : b.id ≠ r.id := by omega
      simpa [haid, hbid] using (foldedName_ne_of_isTaken hfree hb hbid).symm
    · by_cases hbid : b.id = r.id
      · simpa [haid, hbid] using foldedName_ne_of_isTaken hfree ha haid
      · simpa [haid, hbid] using hne

end EntryRow

namespace Store

/-- The facts in the store, and none when the table is missing. -/
def facts (s : Store) : List (String × String) := s.metadata.getD []

/-- What the constraints of the tables demand. -/
structure WellFormed (s : Store) : Prop where
  rows : EntryRow.Ordered s.rows
  keys : (s.facts.map Prod.fst).Nodup

/-- The store after a change. A change that is refused changes nothing. -/
def change (s : Store) : Change → Store
  | .write c => s.attempt c
  | .edit e => s.tamper e

/-- The store after changes, one after the other. -/
def changeAll (s : Store) (changes : List Change) : Store := changes.foldl change s

/-- The store after changes to one that starts empty. -/
def after (changes : List Change) : Store := ({} : Store).changeAll changes

variable {s changed : Store} {n : Nat}

theorem rows_eq_of_editable {rows : List EntryRow} (h : s.editableEntries = .ok rows) :
    s.rows = rows := by
  rw [Store.rows, editableEntries_eq_ok_iff.mp h]
  rfl

theorem facts_eq_of_editable {metadata : List (String × String)}
    (h : s.editableMetadata = .ok metadata) : s.facts = metadata := by
  rw [facts, editableMetadata_eq_ok_iff.mp h]
  rfl

theorem nodup_filter {metadata : List (String × String)} (h : (metadata.map Prod.fst).Nodup)
    (p : String × String → Bool) : ((metadata.filter p).map Prod.fst).Nodup :=
  h.sublist (List.filter_sublist.map _)

theorem nodup_putMetadata {metadata : List (String × String)} (h : (metadata.map Prod.fst).Nodup)
    (key value : String) : ((putMetadata key value metadata).map Prod.fst).Nodup := by
  rw [putMetadata, List.map_append, List.nodup_append]
  refine ⟨nodup_filter h _, List.nodup_singleton key, ?_⟩
  intro a ha b hb
  rw [List.mem_singleton.mp hb]
  obtain ⟨p, hp, rfl⟩ := List.mem_map.mp ha
  exact bne_iff_ne.mp (List.mem_filter.mp hp).2

theorem nodup_putAll {pairs metadata : List (String × String)} (h : (metadata.map Prod.fst).Nodup) :
    ((putAll pairs metadata).map Prod.fst).Nodup := by
  induction pairs generalizing metadata with
  | nil => exact h
  | cons p rest ih => exact ih (nodup_putMetadata h p.1 p.2)

theorem WellFormed.append (h : s.WellFormed) {c : Catalog}
    (hfree : ∀ e ∈ c.entries.toList, ∀ r ∈ s.rows, r.foldedName ≠ e.key) :
    (s.append c).WellFormed where
  rows := by
    have hkeys : (c.entries.toList.map Entry.key).Nodup := by
      rw [List.Nodup, List.pairwise_map]
      exact keys_ne c
    have hnew : EntryRow.Ordered (EntryRow.ofEntries (EntryRow.nextId s.rows) c.entries.toList) := by
      refine ⟨EntryRow.pairwise_id_ofEntries _ _, ?_⟩
      rwa [EntryRow.map_foldedName_ofEntries]
    refine h.rows.append hnew ?_ ?_
    · intro a ha b hb
      exact Nat.lt_of_lt_of_le (EntryRow.id_lt_nextId ha) (EntryRow.id_of_mem_ofEntries hb)
    · intro a ha b hb
      obtain ⟨id, e, he, rfl⟩ := EntryRow.exists_of_mem_ofEntries hb
      exact hfree e he a ha
  keys := nodup_putAll h.keys

theorem WellFormed.attempt (h : s.WellFormed) (c : Catalog) : (s.attempt c).WellFormed := by
  unfold Store.attempt
  split
  · rename_i written hwrite
    obtain ⟨hfree, rfl⟩ := write_eq_ok_iff.mp hwrite
    exact h.append hfree
  · exact h

theorem WellFormed.update (h : s.WellFormed) {row : String} {column : Column} {value : CellValue}
    (hedit : s.update row column value = .ok (n, changed)) : changed.WellFormed := by
  unfold Store.update at hedit
  obtain ⟨rows, hrows, hedit⟩ := bind_eq_ok_iff.mp hedit
  have hold := h.rows
  rw [rows_eq_of_editable hrows] at hold
  split at hedit
  · obtain ⟨-, rfl⟩ := Prod.mk.inj (Except.ok.inj hedit)
    exact h
  · obtain ⟨r, hr, hedit⟩ := bind_eq_ok_iff.mp hedit
    split at hedit
    · cases hedit
    · rename_i hfree
      obtain ⟨-, rfl⟩ := Prod.mk.inj (Except.ok.inj hedit)
      exact ⟨hold.replace (by simpa using hfree), h.keys⟩

theorem WellFormed.edit (h : s.WellFormed) {e : Edit} (hedit : s.edit e = .ok (n, changed)) :
    changed.WellFormed := by
  cases e with
  | setUserVersion version =>
      obtain ⟨-, rfl⟩ := Prod.mk.inj (Except.ok.inj hedit)
      exact ⟨h.rows, h.keys⟩
  | setMetadata key value =>
      obtain ⟨metadata, hmetadata, hedit⟩ := bind_eq_ok_iff.mp hedit
      have hold := h.keys
      rw [facts_eq_of_editable hmetadata] at hold
      split at hedit
      · cases hedit
      · obtain ⟨-, rfl⟩ := Prod.mk.inj (Except.ok.inj hedit)
        exact ⟨h.rows, nodup_putMetadata hold _ _⟩
  | deleteMetadata key =>
      obtain ⟨metadata, hmetadata, hedit⟩ := bind_eq_ok_iff.mp hedit
      have hold := h.keys
      rw [facts_eq_of_editable hmetadata] at hold
      obtain ⟨-, rfl⟩ := Prod.mk.inj (Except.ok.inj hedit)
      exact ⟨h.rows, nodup_filter hold _⟩
  | update row column value => exact h.update hedit
  | deleteRow row =>
      obtain ⟨rows, hrows, hedit⟩ := bind_eq_ok_iff.mp hedit
      have hold := h.rows
      rw [rows_eq_of_editable hrows] at hold
      obtain ⟨-, rfl⟩ := Prod.mk.inj (Except.ok.inj hedit)
      exact ⟨hold.filter _, h.keys⟩
  | insertRow cells =>
      obtain ⟨rows, hrows, hedit⟩ := bind_eq_ok_iff.mp hedit
      have hold := h.rows
      rw [rows_eq_of_editable hrows] at hold
      obtain ⟨r, hr, hedit⟩ := bind_eq_ok_iff.mp hedit
      have hid := EntryRow.id_of_ofCells hr
      split at hedit
      · cases hedit
      · rename_i hfree
        obtain ⟨-, rfl⟩ := Prod.mk.inj (Except.ok.inj hedit)
        have hlt : ∀ a ∈ rows, a.id < r.id := fun a ha => hid ▸ EntryRow.id_lt_nextId ha
        refine ⟨hold.append (.singleton r) ?_ ?_, h.keys⟩
        · intro a ha b hb
          rw [List.mem_singleton.mp hb]
          exact hlt a ha
        · intro a ha b hb
          rw [List.mem_singleton.mp hb]
          exact EntryRow.foldedName_ne_of_isTaken (by simpa using hfree) ha (Nat.ne_of_lt (hlt a ha))
  | dropTable table =>
      cases table with
      | entries =>
          obtain ⟨_, -, hedit⟩ := bind_eq_ok_iff.mp hedit
          obtain ⟨-, rfl⟩ := Prod.mk.inj (Except.ok.inj hedit)
          exact ⟨⟨.nil, .nil⟩, h.keys⟩
      | metadata =>
          obtain ⟨_, -, hedit⟩ := bind_eq_ok_iff.mp hedit
          obtain ⟨-, rfl⟩ := Prod.mk.inj (Except.ok.inj hedit)
          exact ⟨h.rows, .nil⟩

theorem WellFormed.change (h : s.WellFormed) (change : Change) : (s.change change).WellFormed := by
  cases change with
  | write c => exact h.attempt c
  | edit e =>
      show (s.tamper e).WellFormed
      unfold Store.tamper
      split
      · rename_i hedit
        exact h.edit hedit
      · exact h

/-- What the constraints demand holds after any history. -/
theorem wellFormed_after (changes : List Change) : (after changes).WellFormed := by
  have hrun : ∀ {s : Store}, s.WellFormed → (s.changeAll changes).WellFormed := by
    induction changes with
    | nil => exact fun h => h
    | cons change rest ih => exact fun h => ih (h.change change)
  exact hrun ⟨⟨.nil, .nil⟩, .nil⟩

end Store

end NamelistCatalog
