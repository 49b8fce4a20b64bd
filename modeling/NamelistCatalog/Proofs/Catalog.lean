import NamelistCatalog.Catalog
import NamelistCatalog.Proofs.ContentHash

namespace NamelistCatalog.Entry

theorem checkAll_of_listed {entries : List Entry} (h : Listed entries) :
    checkAll entries = none := by
  refine checkAll_eq_none_iff.mpr ⟨h.1, h.2.imp ?_⟩
  intro a b hlt heq
  rw [heq] at hlt
  exact String.lt_irrefl _ hlt

theorem listed_singleton {e : Entry} (h : e.check = none) : Listed [e] := by
  refine ⟨?_, List.pairwise_singleton _ e⟩
  intro d hd
  rw [List.mem_singleton.mp hd]
  exact h

theorem sortByName_of_listed {entries : List Entry} (h : Listed entries) :
    sortByName entries = entries := by
  apply List.mergeSort_of_pairwise
  exact h.2.imp fun hlt => nameLe_iff.mpr (.inl hlt)

theorem sortByName_sortByName (entries : List Entry) :
    sortByName (sortByName entries) = sortByName entries :=
  List.mergeSort_of_pairwise (pairwise_sortByName entries)

def trimVersion (e : Entry) : Entry := { e with version := .ofString e.version.text }

@[simp] theorem name_trimVersion (e : Entry) : e.trimVersion.name = e.name := by
  rw [trimVersion]

@[simp] theorem summary_trimVersion (e : Entry) : e.trimVersion.summary = e.summary := by
  rw [trimVersion]

@[simp] theorem key_trimVersion (e : Entry) : e.trimVersion.key = e.key := by
  rw [key, key, name_trimVersion]

@[simp] theorem check_trimVersion (e : Entry) : e.trimVersion.check = e.check := by
  rw [check, check, name_trimVersion, summary_trimVersion]

theorem trimVersion_eq_self_iff {e : Entry} : e.trimVersion = e ↔ e.version.IsTrimmed := by
  rw [← SourceVersion.ofString_text_eq_iff]
  cases e
  simp [trimVersion]

theorem map_trimVersion_eq_self_iff {entries : List Entry} :
    entries.map trimVersion = entries ↔ ∀ e ∈ entries, e.version.IsTrimmed := by
  induction entries with
  | nil => simp
  | cons e rest ih =>
      rw [List.map_cons, List.cons.injEq, ih, trimVersion_eq_self_iff, List.forall_mem_cons]

theorem listed_map_trimVersion {entries : List Entry} (h : Listed entries) :
    Listed (entries.map trimVersion) := by
  refine ⟨?_, ?_⟩
  · intro e he
    obtain ⟨raw, hraw, rfl⟩ := List.mem_map.mp he
    rw [check_trimVersion]
    exact h.1 raw hraw
  · simpa only [List.pairwise_map, key_trimVersion] using h.2

end NamelistCatalog.Entry

namespace NamelistCatalog.Catalog

theorem ofEntries_eq_ok_iff {info : CatalogInfo} {entries : List Entry} {c : Catalog} :
    ofEntries info entries = .ok c ↔
      Entry.checkAll entries = none ∧ c.info = info ∧ c.entries.toList = Entry.sortByName entries := by
  unfold ofEntries
  split
  · rename_i problem hproblem
    simp [hproblem]
  · rename_i hnone
    rw [Except.ok.injEq]
    constructor
    · rintro rfl
      exact ⟨hnone, rfl, rfl⟩
    · rintro ⟨-, hinfo, hentries⟩
      exact Catalog.ext hinfo.symm (Array.toList_inj.mp hentries.symm)

theorem exists_ofEntries_eq_ok (info : CatalogInfo) {entries : List Entry}
    (h : Entry.checkAll entries = none) : ∃ c, ofEntries info entries = .ok c := by
  unfold ofEntries
  split
  · rename_i problem hproblem
    rw [h] at hproblem
    cases hproblem
  · exact ⟨_, rfl⟩

/-- Neither the version of the catalog nor that of an entry has a blank at its ends. -/
def HasTrimmedVersions (c : Catalog) : Prop :=
  c.info.sourceVersion.IsTrimmed ∧ ∀ e ∈ c.entries.toList, e.version.IsTrimmed

instance (c : Catalog) : Decidable c.HasTrimmedVersions :=
  inferInstanceAs (Decidable (c.info.sourceVersion.IsTrimmed ∧
    ∀ e ∈ c.entries.toList, e.version.IsTrimmed))

/-- The catalog as it comes back from a store. -/
def trimVersions (c : Catalog) : Catalog :=
  { info := { c.info with sourceVersion := .ofString c.info.sourceVersion.text }
    entries := (c.entries.toList.map Entry.trimVersion).toArray
    listed := by simpa using Entry.listed_map_trimVersion c.listed }

theorem info_trimVersions (c : Catalog) :
    c.trimVersions.info =
      { c.info with sourceVersion := .ofString c.info.sourceVersion.text } := by
  rw [trimVersions]

theorem toList_trimVersions (c : Catalog) :
    c.trimVersions.entries.toList = c.entries.toList.map Entry.trimVersion := by
  rw [trimVersions]

theorem trimVersions_eq_self_iff {c : Catalog} : c.trimVersions = c ↔ c.HasTrimmedVersions := by
  constructor
  · intro h
    refine ⟨SourceVersion.ofString_text_eq_iff.mp ?_, Entry.map_trimVersion_eq_self_iff.mp ?_⟩
    · exact congrArg (fun d => d.info.sourceVersion) h
    · exact congrArg (fun d => d.entries.toList) h
  · rintro ⟨hversion, hentries⟩
    apply Catalog.ext
    · have hinfo := SourceVersion.ofString_text_eq_iff.mpr hversion
      simp [trimVersions, hinfo]
    · exact Array.toList_inj.mp (Entry.map_trimVersion_eq_self_iff.mpr hentries)

end NamelistCatalog.Catalog

namespace NamelistCatalog.ContentHash

theorem eq_of_append_eq_append {a b a' b' : List UInt8} (ha : a.Sublist a') (hb : b.Sublist b')
    (h : a ++ b = a' ++ b') : a = a' ∧ b = b' := by
  -- Neither half can make up for what the other has lost.
  have hlen := congrArg List.length h
  have halen := ha.length_le
  have hblen := hb.length_le
  rw [List.length_append, List.length_append] at hlen
  exact ⟨ha.eq_of_length (by omega), hb.eq_of_length (by omega)⟩

theorem encode_ofString_sublist (v : SourceVersion) :
    (Text.Utf8.encode (SourceVersion.ofString v.text).text).Sublist (Text.Utf8.encode v.text) := by
  apply Text.Utf8.encode_sublist
  rw [SourceVersion.toList_ofString]
  exact (Text.trim_isInfix v.text.toList).sublist

theorem entryBytes_eq_append (e : Entry) :
    entryBytes e =
      fieldsBytes [e.name, e.namelist, e.valueType.label, toString e.dim.toNat,
        (e.order.map fun n => toString n.toNat).getD "", taggedDefault e.defaultValue, e.summary,
        e.doc] ++
      (Text.Utf8.encode e.version.text ++ (fieldEnd :: fieldsBytes [e.origin] ++ [recordEnd])) := by
  simp [entryBytes, entryFields, fieldsBytes]

theorem entryBytes_trimVersion_sublist (e : Entry) :
    (entryBytes e.trimVersion).Sublist (entryBytes e) := by
  rw [entryBytes_eq_append, entryBytes_eq_append, Entry.trimVersion]
  exact (List.Sublist.refl _).append ((encode_ofString_sublist e.version).append (.refl _))

theorem isTrimmed_of_entryBytes_eq {e : Entry} (h : entryBytes e.trimVersion = entryBytes e) :
    e.version.IsTrimmed := by
  rw [entryBytes_eq_append, entryBytes_eq_append, Entry.trimVersion] at h
  have hversion := List.append_cancel_right (List.append_cancel_left h)
  exact SourceVersion.ofString_text_eq_iff.mp
    (SourceVersion.text_inj.mp (Text.Utf8.encode_injective hversion))

theorem flatMap_entryBytes_trimVersion_sublist (entries : List Entry) :
    ((entries.map Entry.trimVersion).flatMap entryBytes).Sublist (entries.flatMap entryBytes) := by
  rw [List.flatMap_map]
  exact List.Sublist.flatMap_right entries fun e _ => entryBytes_trimVersion_sublist e

theorem isTrimmed_of_flatMap_entryBytes_eq {entries : List Entry}
    (h : (entries.map Entry.trimVersion).flatMap entryBytes = entries.flatMap entryBytes) :
    ∀ e ∈ entries, e.version.IsTrimmed := by
  induction entries with
  | nil => simp
  | cons e rest ih =>
      rw [List.map_cons, List.flatMap_cons, List.flatMap_cons] at h
      obtain ⟨hhead, htail⟩ := eq_of_append_eq_append (entryBytes_trimVersion_sublist e)
        (flatMap_entryBytes_trimVersion_sublist rest) h
      exact List.forall_mem_cons.mpr ⟨isTrimmed_of_entryBytes_eq hhead, ih htail⟩

end NamelistCatalog.ContentHash

namespace NamelistCatalog.Catalog

theorem hasTrimmedVersions_of_hashedBytes_eq {c : Catalog}
    (h : c.trimVersions.hashedBytes = c.hashedBytes) : c.HasTrimmedVersions := by
  simp only [hashedBytes, ContentHash.bytes, List.append_assoc, trimVersions] at h
  have hrest := List.append_cancel_left h
  obtain ⟨hversion, hentries⟩ := ContentHash.eq_of_append_eq_append
    (ContentHash.encode_ofString_sublist c.info.sourceVersion)
    ((List.Sublist.refl _).append (ContentHash.flatMap_entryBytes_trimVersion_sublist _)) hrest
  refine ⟨SourceVersion.ofString_text_eq_iff.mp ?_, ?_⟩
  · exact SourceVersion.text_inj.mp (Text.Utf8.encode_injective hversion)
  · exact ContentHash.isTrimmed_of_flatMap_entryBytes_eq (List.append_cancel_left hentries)

end NamelistCatalog.Catalog
