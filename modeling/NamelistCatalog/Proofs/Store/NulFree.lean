import NamelistCatalog.Proofs.Store.Rows
import NamelistCatalog.Store.Edit

namespace NamelistCatalog

/-- The value is no text with the character that ends a field. -/
def CellValue.NulFree (value : CellValue) : Prop := ∀ s, value = .text s → Text.NulFree s

theorem Text.NulFree.ofString {s : String} (h : NulFree s) : NulFree (SourceVersion.ofString s).text := by
  rw [NulFree, SourceVersion.toList_ofString]
  exact fun hmem => h ((trim_isInfix s.toList).subset hmem)

theorem Entry.NulFree.trimVersion {e : Entry} (h : e.NulFree) : e.trimVersion.NulFree := by
  intro s hs
  have hold : ∀ t ∈ e.texts, Text.NulFree t := h
  have hversion := Text.NulFree.ofString (hold e.version.text (by simp [texts]))
  simp only [texts, Entry.trimVersion, List.cons_append, List.mem_cons] at hs hold
  grind

theorem CellValue.NulFree.toText? {value : CellValue} (h : value.NulFree) {s : String}
    (hs : value.toText? = some s) : Text.NulFree s := by
  cases value with
  | null => cases hs
  | number n =>
      rw [CellValue.toText?, Option.some.injEq, Int.toString_eq_repr, Int.repr_eq_if] at hs
      subst hs
      split
      · exact Text.nulFree_toString n.toNat
      · have hdigits := Text.nulFree_toString (-n).toNat
        simp only [Text.NulFree, String.toList_append, List.mem_append, not_or]
        exact ⟨by decide, hdigits⟩
  | text t =>
      obtain rfl := Option.some.inj hs
      exact h t rfl

namespace EntryRow

/-- The texts of a row, apart from its folded name and its type, which are checked when it is read. -/
def texts (r : EntryRow) : List String :=
  [r.name, r.namelist, r.summary, r.doc, r.version, r.origin] ++ r.defaultValue.toList

/-- No text of the row holds the character that ends a field. -/
def NulFree (r : EntryRow) : Prop := ∀ s ∈ r.texts, Text.NulFree s

theorem texts_ofEntry (id : Nat) (e : Entry) : (ofEntry id e).texts = e.texts := by
  rw [texts, Entry.texts, ofEntry]

theorem needed_eq_ok_iff {α : Type} {column : Column} {value : Option α} {a : α} :
    needed column value = .ok a ↔ value = some a := by
  cases value <;> simp [needed]

theorem mem_texts_of_set {r changed : EntryRow} {column : Column} {value : CellValue}
    (h : r.set column value = .ok changed) {s : String} (hs : s ∈ changed.texts) :
    s ∈ r.texts ∨ value.toText? = some s := by
  unfold set at h
  cases column with
  | dim =>
      obtain ⟨n, -, rfl⟩ := map_eq_ok_iff.mp h
      exact .inl hs
  | ord =>
      obtain rfl := Except.ok.inj h
      exact .inl hs
  | defaultValue =>
      obtain rfl := Except.ok.inj h
      simp only [texts, List.mem_append, Option.mem_toList] at hs ⊢
      rcases hs with hs | hs
      · exact .inl (.inl hs)
      · exact .inr hs
  | foldedName | valueType =>
      obtain ⟨t, -, rfl⟩ := map_eq_ok_iff.mp h
      exact .inl hs
  | name | namelist | summary | doc | version | origin =>
      obtain ⟨t, ht, rfl⟩ := map_eq_ok_iff.mp h
      rw [needed_eq_ok_iff] at ht
      simp only [texts, List.cons_append, List.mem_cons] at hs ⊢
      rw [ht]
      grind

theorem NulFree.set {r changed : EntryRow} {column : Column} {value : CellValue} (hr : r.NulFree)
    (hvalue : value.NulFree) (h : r.set column value = .ok changed) : changed.NulFree := by
  intro s hs
  rcases mem_texts_of_set h hs with hs | hs
  · exact hr s hs
  · exact hvalue.toText? hs

theorem NulFree.foldlM_set {r changed : EntryRow} {columns : List Column}
    {value : Column → CellValue} (hr : r.NulFree) (hvalue : ∀ column, (value column).NulFree)
    (h : columns.foldlM (fun r column => r.set column (value column)) r = .ok changed) :
    changed.NulFree := by
  induction columns generalizing r with
  | nil =>
      obtain rfl := Except.ok.inj h
      exact hr
  | cons column rest ih =>
      rw [List.foldlM_cons] at h
      obtain ⟨next, hnext, h⟩ := bind_eq_ok_iff.mp h
      exact ih (hr.set (hvalue column) hnext) h

theorem nulFree_defaultCell (column : Column) : (defaultCell column).NulFree := by
  intro s hs
  cases column <;> cases hs <;> decide

theorem nulFree_ofCells {id : Nat} {cells : List (Column × CellValue)} {r : EntryRow}
    (hcells : ∀ v ∈ cells.map Prod.snd, v.NulFree) (h : ofCells id cells = .ok r) : r.NulFree := by
  have hempty : ∀ s ∈ ["", "", "", "", "", ""], Text.NulFree s := by decide
  refine NulFree.foldlM_set (r := ⟨id, "", "", "", "", .number 0, none, none, "", "", "", ""⟩) hempty
    ?_ h
  intro column
  cases hlookup : cells.lookup column with
  | none => exact nulFree_defaultCell column
  | some v =>
      obtain ⟨before, after, rfl, -⟩ := List.lookup_eq_some_iff.mp hlookup
      exact hcells v (by simp)

theorem exists_of_mem_ofEntries {id : Nat} {entries : List Entry} {r : EntryRow}
    (h : r ∈ ofEntries id entries) : ∃ n, ∃ e ∈ entries, r = ofEntry n e := by
  induction entries generalizing id with
  | nil => cases h
  | cons e rest ih =>
      rcases List.mem_cons.mp h with rfl | h
      · exact ⟨id, e, List.mem_cons_self, rfl⟩
      · obtain ⟨n, d, hd, rfl⟩ := ih h
        exact ⟨n, d, List.mem_cons_of_mem _ hd, rfl⟩

theorem NulFree.decode {r : EntryRow} {e : Entry} (hr : r.NulFree) (h : r.decode = .ok e) :
    e.NulFree := by
  obtain ⟨raw, hraw, rfl⟩ := decode_eq_ok_iff.mp h
  rw [NulFree, hraw, texts_ofEntry] at hr
  exact Entry.NulFree.trimVersion hr

end EntryRow

end NamelistCatalog
