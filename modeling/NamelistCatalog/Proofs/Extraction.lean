import NamelistCatalog.Extraction
import NamelistCatalog.Proofs.Declarations
import NamelistCatalog.Proofs.Defaults
import NamelistCatalog.Proofs.Summary
import NamelistCatalog.Validation

namespace NamelistCatalog

namespace Declared

/-- The index lists some of the declarations, each under its folded name and none under a name that
is taken. -/
structure Indexes (index : List (String × Declared)) (declared : List Declared) : Prop where
  keys : ∀ p ∈ index, p.1 = Name.fold p.2.1.name
  members : ∀ p ∈ index, p.2 ∈ declared
  nodup : (index.map Prod.fst).Nodup

theorem indexes_index {seen : List (String × Declared)} {declared rest : List Declared}
    (h : Indexes seen declared) (hrest : ∀ d ∈ rest, d ∈ declared) :
    Indexes (index seen rest) declared := by
  induction rest generalizing seen with
  | nil =>
      refine ⟨?_, ?_, ?_⟩
      · exact fun p hp => h.keys p (List.mem_reverse.mp hp)
      · exact fun p hp => h.members p (List.mem_reverse.mp hp)
      · rw [index, List.map_reverse, List.nodup_reverse]
        exact h.nodup
  | cons d rest ih =>
      rw [List.forall_mem_cons] at hrest
      rw [index]
      split
      · exact ih h hrest.2
      · rename_i hfresh
        rw [Option.not_isSome_iff_eq_none, Association.lookup_eq_none_iff_not_mem] at hfresh
        apply ih _ hrest.2
        refine ⟨?_, ?_, List.nodup_cons.mpr ⟨hfresh, h.nodup⟩⟩
        · exact List.forall_mem_cons.mpr ⟨rfl, h.keys⟩
        · exact List.forall_mem_cons.mpr ⟨hrest.1, h.members⟩

end Declared

namespace LoadedSet

/-- The declarations of all documents of the set. -/
def declared (s : LoadedSet) : List Declared :=
  ((s.readable .declarations).map fun d => (d.1, DeclarationsDocument.parse d.1 d.2)).flatMap
    fun d => d.2.declarations.map (·, d.1)

/-- The records of all documents of the set, with the labels of their documents and their folded
names. -/
def keyedRecords (s : LoadedSet) : List (String × String × DefaultsRecord) :=
  ((s.readable .defaults).map fun d => (d.1, DefaultsDocument.parse d.1 d.2)).flatMap
    fun d => d.2.records.map fun record => (d.1, Name.fold record.name, record)

/-- The declarations of the set that no record of the set is for. -/
def leftover (s : LoadedSet) : List (String × Declared) :=
  (Declared.index [] s.declared).filter fun d => !(s.keyedRecords.map fun r => r.2.1).contains d.1

theorem entries_extract (s : LoadedSet) :
    s.extract.entries =
      (s.keyedRecords.map fun r =>
        s.entryOfRecord r.1 (((Declared.index [] s.declared).lookup r.2.1).map Prod.fst) r.2.2) ++
      s.leftover.map fun d => s.entryOfDeclared d.2 := rfl

theorem indexes_declared (s : LoadedSet) : Declared.Indexes (Declared.index [] s.declared) s.declared :=
  Declared.indexes_index ⟨by simp, by simp, List.nodup_nil⟩ fun _ hd => hd

theorem isValid_of_mem_declared {s : LoadedSet} {d : Declared} (h : d ∈ s.declared) :
    Name.isValid d.1.name = true := by
  obtain ⟨document, hdocument, hd⟩ := List.mem_flatMap.mp h
  obtain ⟨readable, -, rfl⟩ := List.mem_map.mp hdocument
  obtain ⟨declaration, hdeclaration, rfl⟩ := List.mem_map.mp hd
  exact DeclarationsDocument.isValid_of_mem_parse hdeclaration

theorem of_mem_keyedRecords {s : LoadedSet} {r : String × String × DefaultsRecord}
    (h : r ∈ s.keyedRecords) : r.2.1 = Name.fold r.2.2.name ∧ Name.isValid r.2.2.name = true := by
  obtain ⟨document, hdocument, hr⟩ := List.mem_flatMap.mp h
  obtain ⟨readable, -, rfl⟩ := List.mem_map.mp hdocument
  obtain ⟨record, hrecord, rfl⟩ := List.mem_map.mp hr
  exact ⟨rfl, DefaultsDocument.isValid_of_mem_parse hrecord⟩

variable (s : LoadedSet) (origin : String) (declaration : Option Declaration)

theorem key_entryOfRecord (record : DefaultsRecord) :
    (s.entryOfRecord origin declaration record).key = Name.fold record.name := rfl

theorem key_entryOfDeclared (d : Declared) : (s.entryOfDeclared d).key = Name.fold d.1.name := rfl

variable {s}

theorem exists_of_mem_extract {e : Entry} (h : e ∈ s.extract.entries) :
    (∃ r ∈ s.keyedRecords, ∃ declaration, e = s.entryOfRecord r.1 declaration r.2.2) ∨
      ∃ d ∈ s.declared, e = s.entryOfDeclared d := by
  rw [entries_extract] at h
  rcases List.mem_append.mp h with h | h
  · obtain ⟨r, hr, rfl⟩ := List.mem_map.mp h
    exact .inl ⟨r, hr, _, rfl⟩
  · obtain ⟨d, hd, rfl⟩ := List.mem_map.mp h
    exact .inr ⟨d.2, s.indexes_declared.members d (List.mem_of_mem_filter hd), rfl⟩

theorem isValid_of_mem_extract {e : Entry} (h : e ∈ s.extract.entries) :
    Name.isValid e.name = true := by
  rcases exists_of_mem_extract h with ⟨r, hr, declaration, rfl⟩ | ⟨d, hd, rfl⟩
  · exact (of_mem_keyedRecords hr).2
  · exact isValid_of_mem_declared hd

theorem isLine_of_mem_extract {e : Entry} (h : e ∈ s.extract.entries) :
    Text.IsLine e.summary.toList := by
  rcases exists_of_mem_extract h with ⟨r, -, declaration, rfl⟩ | ⟨d, -, rfl⟩
  · exact Summary.isLine_ofDoc r.2.2.doc
  · intro c hc
    simp [entryOfDeclared] at hc

theorem version_of_mem_extract {e : Entry} (h : e ∈ s.extract.entries) : e.version = s.version := by
  rcases exists_of_mem_extract h with ⟨r, -, declaration, rfl⟩ | ⟨d, -, rfl⟩
  · rfl
  · rfl

/-- Whatever the documents of a set say, its entries are accepted by a catalog. -/
theorem check_of_mem_extract {e : Entry} (h : e ∈ s.extract.entries) : e.check = none :=
  Entry.check_eq_none_iff.mpr ⟨isValid_of_mem_extract h, (isLine_of_mem_extract h).newline_not_mem⟩

theorem nodup_keyedRecords (h : (s.documentsOf .defaults).length ≤ 1) :
    (s.keyedRecords.map fun r => r.2.1).Nodup := by
  have hreadable : (s.readable .defaults).length ≤ 1 :=
    Nat.le_trans (List.length_filterMap_le _ _) h
  unfold keyedRecords
  cases hd : s.readable .defaults with
  | nil => exact List.nodup_nil
  | cons document rest =>
      rw [hd, List.length_cons] at hreadable
      obtain rfl : rest = [] := List.eq_nil_of_length_eq_zero (by omega)
      simpa [Function.comp_def] using
        DefaultsDocument.nodup_fold_parse document.1 document.2

theorem map_key_entries_extract (s : LoadedSet) :
    s.extract.entries.map Entry.key =
      (s.keyedRecords.map fun r => r.2.1) ++ s.leftover.map Prod.fst := by
  rw [entries_extract, List.map_append, List.map_map, List.map_map]
  congr 1
  · refine List.map_congr_left ?_
    intro r hr
    rw [Function.comp_apply, key_entryOfRecord, (of_mem_keyedRecords hr).1]
  · refine List.map_congr_left ?_
    intro d hd
    rw [Function.comp_apply, key_entryOfDeclared,
      s.indexes_declared.keys d (List.mem_of_mem_filter hd)]

theorem nodup_keys_extract (h : (s.documentsOf .defaults).length ≤ 1) :
    (s.extract.entries.map Entry.key).Nodup := by
  -- The index has no name twice, and what is left of it has none of the records.
  rw [map_key_entries_extract, List.nodup_append]
  refine ⟨nodup_keyedRecords h, ?_, ?_⟩
  · exact s.indexes_declared.nodup.sublist (List.filter_sublist.map Prod.fst)
  · rintro a ha b hb rfl
    obtain ⟨d, hd, rfl⟩ := List.mem_map.mp hb
    have habsent := (List.mem_filter.mp hd).2
    rw [Bool.not_eq_true', List.contains_eq_mem, decide_eq_false_iff_not] at habsent
    exact habsent ha

end LoadedSet

namespace Extraction

/-- The number of malformed records of all sets. -/
def totalSkipped (sets : List LoadedSet) : Nat := sets.foldr (fun s n => s.extract.skipped + n) 0

theorem totalSkipped_perm {sets sets' : List LoadedSet} (h : sets.Perm sets') :
    totalSkipped sets = totalSkipped sets' := by
  refine h.foldr_eq' ?_ 0
  intro a _ b _ n
  omega

theorem drainSets_eq (summary : ExtractionSummary) (sets : List LoadedSet) :
    (drainSets summary sets).1 = sets.flatMap (fun s => s.extract.entries) ∧
      (drainSets summary sets).2.skipped = summary.skipped + totalSkipped sets := by
  induction sets generalizing summary with
  | nil => exact ⟨rfl, rfl⟩
  | cons s rest ih =>
      obtain ⟨hentries, hskipped⟩ := ih ((summary.add s.extract).yield s.extract.entries.length)
      refine ⟨?_, ?_⟩
      · rw [List.flatMap_cons, ← hentries]
        rfl
      · rw [totalSkipped, List.foldr_cons, ← Nat.add_assoc]
        exact hskipped

theorem drain_ofSets (sets : List LoadedSet) :
    (ofSets sets).drain.1 = sets.flatMap (fun s => s.extract.entries) ∧
      (ofSets sets).drain.2.skipped = totalSkipped sets := by
  obtain ⟨hentries, hskipped⟩ := drainSets_eq {} sets
  refine ⟨hentries, ?_⟩
  rw [Nat.zero_add] at hskipped
  exact hskipped

end Extraction

end NamelistCatalog
