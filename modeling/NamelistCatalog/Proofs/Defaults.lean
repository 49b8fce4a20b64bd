import NamelistCatalog.Defaults
import NamelistCatalog.Proofs.Association
import NamelistCatalog.Warning

namespace NamelistCatalog

namespace Warning

variable {kind : WarningKind} {warnings : List Warning}

theorem count_append (a b : List Warning) : count kind (a ++ b) = count kind a + count kind b :=
  List.countP_append

theorem count_reverse (warnings : List Warning) : count kind warnings.reverse = count kind warnings :=
  List.countP_reverse

theorem count_eq_zero (h : ∀ w ∈ warnings, w.kind ≠ kind) : count kind warnings = 0 :=
  List.countP_eq_zero.mpr fun w hw hkind => h w hw (beq_iff_eq.mp hkind)

theorem count_eq_length (h : ∀ w ∈ warnings, w.kind = kind) : count kind warnings = warnings.length :=
  List.countP_eq_length.mpr fun w hw => beq_iff_eq.mpr (h w hw)

end Warning

theorem Assignment.isIdentifier_of_ofStatement? {statement : List Char} {a : Assignment}
    (h : ofStatement? statement = some a) : Name.isIdentifier a.name = true := by
  unfold ofStatement? at h
  dsimp only at h
  split at h
  · cases h
  · rename_i hname
    rw [Bool.not_eq_true', Bool.not_eq_false] at hname
    split at h
    · split at h
      · cases h
      · obtain ⟨index, -, rfl⟩ := Option.map_eq_some_iff.mp h
        exact hname
    · obtain rfl := Option.some.inj h
      exact hname
    · cases h

namespace DefaultsReader

/-- Every record is an identifier under its folded name, and no folded name is there twice. -/
structure WellKeyed (r : DefaultsReader) : Prop where
  keys : ∀ p ∈ r.records, p.1 = Name.fold p.2.name
  names : ∀ p ∈ r.records, Name.isValid p.2.name = true
  nodup : (r.records.map Prod.fst).Nodup

variable {r : DefaultsReader} {origin : String} {number : Nat} {key : String}

theorem WellKeyed.of_records_eq {s : DefaultsReader} (h : r.WellKeyed) (hs : s.records = r.records) :
    s.WellKeyed where
  keys := by rw [hs]; exact h.keys
  names := by rw [hs]; exact h.names
  nodup := by rw [hs]; exact h.nodup

theorem WellKeyed.warn (h : r.WellKeyed) (w : Warning) : (r.warn w).WellKeyed := h.of_records_eq rfl

theorem WellKeyed.repeated (h : r.WellKeyed) {first : DefaultsRecord} (a : Assignment)
    (hfirst : r.records.lookup key = some first) : (r.repeated origin number key first a).WellKeyed := by
  have hmem := Association.mem_of_lookup hfirst
  unfold DefaultsReader.repeated
  split
  · rename_i index _
    dsimp only
    split
    · refine ⟨?_, ?_, ?_⟩
      · intro p hp
        obtain ⟨old, hold, rfl⟩ := List.mem_map.mp hp
        split
        · exact h.keys (key, first) hmem
        · exact h.keys old hold
      · intro p hp
        obtain ⟨old, hold, rfl⟩ := List.mem_map.mp hp
        split
        · exact h.names (key, first) hmem
        · exact h.names old hold
      · dsimp only
        rw [Association.map_fst_replace]
        exact h.nodup
    · exact h.warn _
  · exact h.warn _

theorem WellKeyed.fresh (h : r.WellKeyed) {a : Assignment} (ha : Name.isIdentifier a.name = true)
    (hkey : key = Name.fold (String.ofList a.name)) (hfresh : r.records.lookup key = none) :
    (r.fresh origin number key a).WellKeyed := by
  rw [Association.lookup_eq_none_iff_not_mem] at hfresh
  have hname : Name.isValid (String.ofList a.name) = true := by
    rw [Name.isValid, String.toList_ofList]
    exact ha
  have hadded : ∀ record : DefaultsRecord, record.name = String.ofList a.name →
      ({ r with records := (key, record) :: r.records } : DefaultsReader).WellKeyed := by
    intro record hrecord
    refine ⟨?_, ?_, List.nodup_cons.mpr ⟨hfresh, h.nodup⟩⟩
    · refine List.forall_mem_cons.mpr ⟨?_, h.keys⟩
      rw [hkey, hrecord]
    · refine List.forall_mem_cons.mpr ⟨?_, h.names⟩
      rw [hrecord]
      exact hname
  unfold DefaultsReader.fresh
  dsimp only
  split
  · exact (hadded _ rfl).warn _
  · exact hadded _ rfl

theorem WellKeyed.step (h : r.WellKeyed) (statement : CodeLine) :
    (r.step origin statement).WellKeyed := by
  unfold DefaultsReader.step
  split
  · exact h
  · split
    · exact h.of_records_eq rfl
    · rename_i a ha
      dsimp only
      split
      · rename_i first hfirst
        exact h.repeated a hfirst
      · rename_i hfresh
        exact h.fresh (Assignment.isIdentifier_of_ofStatement? ha) rfl hfresh

theorem WellKeyed.foldl_step (h : r.WellKeyed) (statements : List CodeLine) :
    (statements.foldl (DefaultsReader.step origin) r).WellKeyed := by
  -- The reader that the fold starts from has to vary along with the statements.
  induction statements generalizing r with
  | nil => exact h
  | cons statement rest ih => exact ih (h.step statement)

/-- The kinds of the warnings about statements of a defaults document. -/
def statementKinds : List WarningKind := [.malformedRecord, .missingValue, .duplicateInDocument]

theorem kind_of_mem_warnings_warn {added w : Warning} (hadded : added.kind ∈ statementKinds)
    (h : w ∈ (r.warn added).warnings) : w ∈ r.warnings ∨ w.kind ∈ statementKinds := by
  rcases List.mem_cons.mp h with rfl | h
  · exact .inr hadded
  · exact .inl h

theorem kind_of_mem_warnings_step {statement : CodeLine} {w : Warning}
    (h : w ∈ (r.step origin statement).warnings) : w ∈ r.warnings ∨ w.kind ∈ statementKinds := by
  unfold DefaultsReader.step at h
  split at h
  · exact .inl h
  · split at h
    · exact kind_of_mem_warnings_warn (by simp [statementKinds]) h
    · dsimp only at h
      split at h
      · unfold DefaultsReader.repeated at h
        split at h
        · split at h
          · exact .inl h
          · exact kind_of_mem_warnings_warn (by simp [repeated.warning, statementKinds]) h
        · exact kind_of_mem_warnings_warn (by simp [repeated.warning, statementKinds]) h
      · unfold DefaultsReader.fresh at h
        dsimp only at h
        split at h
        · exact kind_of_mem_warnings_warn (by simp [statementKinds]) h
        · exact .inl h

theorem kind_of_mem_warnings_foldl_step {statements : List CodeLine} {w : Warning}
    (h : w ∈ (statements.foldl (DefaultsReader.step origin) r).warnings) :
    w ∈ r.warnings ∨ w.kind ∈ statementKinds := by
  induction statements generalizing r with
  | nil => exact .inl h
  | cons statement rest ih =>
      rcases ih h with h | h
      · exact kind_of_mem_warnings_step h
      · exact .inr h

theorem wellKeyed_empty : ({} : DefaultsReader).WellKeyed := by
  refine ⟨?_, ?_, List.nodup_nil⟩ <;> simp

/-- The reader has warned about each statement that it skipped. -/
def Balances (r : DefaultsReader) : Prop := r.skipped = Warning.count .malformedRecord r.warnings

theorem Balances.warn (h : r.Balances) {w : Warning} (hw : w.kind ≠ .malformedRecord) :
    (r.warn w).Balances := by
  unfold Balances Warning.count DefaultsReader.warn
  rw [List.countP_cons_of_neg (by simpa using hw)]
  exact h

theorem Balances.skip (h : r.Balances) (statement : List Char) :
    (r.skip origin number statement).Balances := by
  unfold Balances Warning.count DefaultsReader.skip
  rw [List.countP_cons_of_pos (by simp)]
  exact congrArg (· + 1) h

theorem Balances.repeated (h : r.Balances) (first : DefaultsRecord) (a : Assignment) :
    (r.repeated origin number key first a).Balances := by
  have hwarn : (r.warn (repeated.warning origin number first a.name)).Balances := by
    apply h.warn
    rintro ⟨⟩
  unfold DefaultsReader.repeated
  split
  · dsimp only
    split
    · exact h
    · exact hwarn
  · exact hwarn

theorem Balances.fresh (h : r.Balances) (a : Assignment) : (r.fresh origin number key a).Balances := by
  unfold DefaultsReader.fresh
  dsimp only
  split
  · apply Balances.warn
    · exact h
    · rintro ⟨⟩
  · exact h

theorem Balances.step (h : r.Balances) (statement : CodeLine) : (r.step origin statement).Balances := by
  unfold DefaultsReader.step
  split
  · exact h
  · split
    · exact h.skip statement.text
    · dsimp only
      split
      · exact h.repeated _ _
      · exact h.fresh _

theorem Balances.foldl_step (h : r.Balances) (statements : List CodeLine) :
    (statements.foldl (DefaultsReader.step origin) r).Balances := by
  induction statements generalizing r with
  | nil => exact h
  | cons statement rest ih => exact ih (h.step statement)

end DefaultsReader

namespace DefaultsDocument

theorem isValid_of_mem_parse {origin : String} {text : List Char} {record : DefaultsRecord}
    (h : record ∈ (parse origin text).records) : Name.isValid record.name = true := by
  obtain ⟨p, hp, rfl⟩ := List.mem_map.mp h
  exact (DefaultsReader.wellKeyed_empty.foldl_step _).names p (List.mem_reverse.mp hp)

theorem kind_of_mem_warnings {origin : String} {text : List Char} {w : Warning}
    (h : w ∈ (parse origin text).warnings) : w.kind ∈ DefaultsReader.statementKinds := by
  rcases DefaultsReader.kind_of_mem_warnings_foldl_step (List.mem_reverse.mp h) with h | h
  · cases h
  · exact h

theorem nodup_fold_parse (origin : String) (text : List Char) :
    ((parse origin text).records.map fun record => Name.fold record.name).Nodup := by
  unfold parse ofItems
  dsimp only
  rw [List.map_map]
  generalize hr : List.foldl _ _ _ = r
  have hkeyed : r.WellKeyed := by
    rw [← hr]
    exact DefaultsReader.wellKeyed_empty.foldl_step _
  have hkeys : (r.records.reverse.map Prod.fst).Nodup := by
    rw [List.map_reverse, List.nodup_reverse]
    exact hkeyed.nodup
  convert hkeys using 1
  refine List.map_congr_left ?_
  intro p hp
  exact (hkeyed.keys p (List.mem_reverse.mp hp)).symm

theorem skipped_parse (origin : String) (text : List Char) :
    (parse origin text).skipped = Warning.count .malformedRecord (parse origin text).warnings := by
  have hempty : ({} : DefaultsReader).Balances := rfl
  rw [parse, ofItems, Warning.count_reverse]
  exact hempty.foldl_step _

theorem count_warnings_parse {kind : WarningKind} (h : kind ∉ DefaultsReader.statementKinds)
    (origin : String) (text : List Char) : Warning.count kind (parse origin text).warnings = 0 :=
  Warning.count_eq_zero fun _ hw hkind => h (hkind ▸ kind_of_mem_warnings hw)

end DefaultsDocument

end NamelistCatalog
