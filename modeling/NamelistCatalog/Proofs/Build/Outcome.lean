import Mathlib.Data.List.Perm.Subperm
import NamelistCatalog.Proofs.Build.Loading
import NamelistCatalog.Proofs.Extraction
import NamelistCatalog.Proofs.Merge
import NamelistCatalog.Proofs.Store.RoundTrip

namespace NamelistCatalog

/-- The catalog has one entry for each folded name of the candidates and no other. -/
structure Catalog.Covers (c : Catalog) (candidates : List Entry) : Prop where
  nodup : (c.entries.toList.map Entry.key).Nodup
  keys : ∀ key, key ∈ c.entries.toList.map Entry.key ↔ key ∈ candidates.map Entry.key

theorem Catalog.Covers.size_le {c : Catalog} {candidates : List Entry} (h : c.Covers candidates) :
    c.size ≤ candidates.length := by
  have hsubset : c.entries.toList.map Entry.key ⊆ candidates.map Entry.key :=
    fun key hkey => (h.keys key).mp hkey
  have hlength := (h.nodup.subperm hsubset).length_le
  rw [List.length_map, List.length_map] at hlength
  exact hlength

namespace Build

/-- The entries that the sets give, in the order in which they are extracted. -/
def candidates (sets : List LoadedSet) : List Entry := (Extraction.ofSets sets).drain.1

variable {policy : MergePolicy} {generatedAt : String} {sets : List LoadedSet}

theorem candidates_eq (sets : List LoadedSet) :
    candidates sets = sets.flatMap fun s => s.extract.entries :=
  (Extraction.drain_ofSets sets).1

theorem exists_set_of_mem_candidates {e : Entry} (h : e ∈ candidates sets) :
    ∃ s ∈ sets, e ∈ s.extract.entries := by
  rw [candidates_eq] at h
  exact List.mem_flatMap.mp h

theorem check_of_mem_candidates {e : Entry} (h : e ∈ candidates sets) : e.check = none := by
  obtain ⟨s, -, he⟩ := exists_set_of_mem_candidates h
  exact LoadedSet.check_of_mem_extract he

theorem isLine_of_mem_candidates {e : Entry} (h : e ∈ candidates sets) :
    Text.IsLine e.summary.toList := by
  obtain ⟨s, -, he⟩ := exists_set_of_mem_candidates h
  exact LoadedSet.isLine_of_mem_extract he

/-- The catalog and the counts that sets give when their candidates are merged. -/
structure Gives (policy : MergePolicy) (generatedAt : String) (sets : List LoadedSet) (c : Catalog)
    (report : BuildReport) : Prop where
  schema : c.info.schemaVersion = currentSchema
  time : c.info.generatedAt = generatedAt
  version : c.info.sourceVersion =
    SourceVersion.maximum ((Merge.ofCandidates policy (candidates sets)).entries.map Entry.version)
  entries : c.entries.toList = (Merge.ofCandidates policy (candidates sets)).entries
  extracted : report.extracted = (candidates sets).length
  skipped : report.skipped = Extraction.totalSkipped sets
  superseded : report.superseded =
    (Merge.ofCandidates policy (candidates sets)).overrides.length
  size : report.entries = c.size

theorem ofLoaded_of_nil (h : candidates sets = []) :
    ofLoaded policy generatedAt sets = .error .noEntries := by
  have hentries : (Merge.ofCandidates policy (candidates sets)).entries = [] :=
    Merge.entries_eq_nil_iff.mpr h
  unfold candidates at hentries
  simp [ofLoaded, hentries]

/-- Sets that give an entry build: the validator has nothing to refuse. -/
theorem exists_ofLoaded_eq_ok (policy : MergePolicy) (generatedAt : String)
    (h : candidates sets ≠ []) :
    ∃ c report, ofLoaded policy generatedAt sets = .ok (c, report) ∧
      Gives policy generatedAt sets c report := by
  have hentries : (Merge.ofCandidates policy (candidates sets)).entries ≠ [] :=
    fun hnil => h (Merge.entries_eq_nil_iff.mp hnil)
  have haccepted : Entry.checkAll (Merge.ofCandidates policy (candidates sets)).entries = none :=
    Merge.checkAll_entries fun e he => check_of_mem_candidates he
  obtain ⟨c, hc⟩ := Catalog.exists_ofEntries_eq_ok
    { schemaVersion := currentSchema
      sourceVersion := SourceVersion.maximum
        ((Merge.ofCandidates policy (candidates sets)).entries.map Entry.version)
      generatedAt } haccepted
  obtain ⟨-, hinfo, hlisted⟩ := Catalog.ofEntries_eq_ok_iff.mp hc
  have hbuilt : Catalog.build generatedAt (Merge.ofCandidates policy (candidates sets)).entries =
      .ok c := hc
  refine ⟨c,
    { sourceVersion := c.info.sourceVersion
      extracted := (candidates sets).length
      skipped := (Extraction.ofSets sets).drain.2.skipped
      superseded := (Merge.ofCandidates policy (candidates sets)).overrides.length
      entries := c.size
      warnings := (Extraction.ofSets sets).drain.2.warnings ++
        (Merge.ofCandidates policy (candidates sets)).overrides.map Override.warning }, ?_, ?_⟩
  · unfold candidates at hentries hbuilt
    unfold ofLoaded
    dsimp only
    rw [if_neg (by simpa using hentries), hbuilt]
    rfl
  · exact
      { schema := by rw [hinfo]
        time := by rw [hinfo]
        version := by rw [hinfo]
        entries := by
          rw [hlisted, Merge.ofCandidates]
          exact Entry.sortByName_sortByName _
        extracted := rfl
        skipped := (Extraction.drain_ofSets sets).2
        superseded := rfl
        size := rfl }

theorem Gives.covers {c : Catalog} {report : BuildReport} (h : Gives policy generatedAt sets c report) :
    c.Covers (candidates sets) where
  nodup := by
    rw [h.entries]
    exact Merge.nodup_keys_entries policy (candidates sets)
  keys := by
    rw [h.entries]
    exact Merge.mem_keys_entries_iff policy (candidates sets)

theorem Gives.mem_candidates {c : Catalog} {report : BuildReport}
    (h : Gives policy generatedAt sets c report) {e : Entry} (he : e ∈ c.entries.toList) :
    e ∈ candidates sets := by
  rw [h.entries] at he
  exact Merge.mem_of_mem_entries he

theorem Gives.hasTrimmedVersions {c : Catalog} {report : BuildReport}
    (h : Gives policy generatedAt sets c report) (hne : candidates sets ≠ [])
    (hsets : ∀ s ∈ sets, s.version.IsTrimmed) : c.HasTrimmedVersions := by
  have hentries : ∀ e ∈ c.entries.toList, e.version.IsTrimmed := by
    intro e he
    obtain ⟨s, hs, hmem⟩ := exists_set_of_mem_candidates (h.mem_candidates he)
    rw [LoadedSet.version_of_mem_extract hmem]
    exact hsets s hs
  refine ⟨?_, hentries⟩
  have hversions : c.entries.toList.map Entry.version ≠ [] := by
    rw [h.entries, ne_eq, List.map_eq_nil_iff, Merge.entries_eq_nil_iff]
    exact hne
  obtain ⟨e, he, hversion⟩ := List.mem_map.mp (SourceVersion.maximum_mem hversions)
  rw [h.version, ← h.entries, ← hversion]
  exact hentries e he

/-- A build over any documents fails only when they give no entry at all. Otherwise its catalog has
one entry for each folded name that was extracted, with an identifier for a name and one line for a
summary, and when the labels of the sets were read as labels are, the catalog can be written to an
empty store and is read back as it was, if its size is one that a count can tell. -/
theorem inTree_outcome (tree : FileTree) (plan : BuildPlan) (generatedAt : String) :
    (inTree tree plan generatedAt = .error .noEntries ∧
        candidates (plan.sets.map (SourceSet.loadFrom tree)) = []) ∨
      candidates (plan.sets.map (SourceSet.loadFrom tree)) ≠ [] ∧
        ∃ c report, inTree tree plan generatedAt = .ok (c, report) ∧
          c.Covers (candidates (plan.sets.map (SourceSet.loadFrom tree))) ∧
          (∀ e ∈ c.entries.toList, Name.isValid e.name = true ∧ Text.IsLine e.summary.toList) ∧
          ((∀ s ∈ plan.sets, ∃ text, s.version = .ofString text) → c.size ≤ Text.maxCount →
            ∃ s, ({} : Store).write c = .ok s ∧ s.read = .ok c) := by
  rw [inTree_eq]
  by_cases hne : candidates (plan.sets.map (SourceSet.loadFrom tree)) = []
  · exact .inl ⟨ofLoaded_of_nil hne, hne⟩
  · right
    obtain ⟨c, report, hbuild, hgives⟩ := exists_ofLoaded_eq_ok plan.policy generatedAt hne
    refine ⟨hne, c, report, hbuild, hgives.covers, ?_, ?_⟩
    · intro e he
      have hmem := hgives.mem_candidates he
      exact ⟨(Entry.check_eq_none_iff.mp (check_of_mem_candidates hmem)).1,
        isLine_of_mem_candidates hmem⟩
    · intro hlabels hsize
      have htrimmed : ∀ s ∈ plan.sets.map (SourceSet.loadFrom tree), s.version.IsTrimmed := by
        intro loaded hloaded
        obtain ⟨s, hs, rfl⟩ := List.mem_map.mp hloaded
        obtain ⟨text, htext⟩ := hlabels s hs
        rw [SourceSet.version_loadFrom, htext]
        exact SourceVersion.isTrimmed_ofString text
      exact ⟨Store.ofCatalog c, Store.write_empty c, Store.read_ofCatalog_of_trimmed hgives.schema
        (hgives.hasTrimmedVersions hne htrimmed) hsize⟩

/-- A set that gives one parameter in a release. -/
def oneRecord (version : String) : SourceSet :=
  { namelist := "n", version := .ofString version, documents := [⟨.defaults, .text "a" "x=1"⟩] }

theorem map_key_oneRecord (tree : FileTree) (version : String) :
    ((oneRecord version).loadFrom tree).extract.entries.map Entry.key = ["x"] := by
  have hdefaults : ((oneRecord version).loadFrom tree).readable .defaults = [("a", "x=1".toList)] :=
    rfl
  have hdeclarations : ((oneRecord version).loadFrom tree).readable .declarations = [] := rfl
  have hitems :
      DefaultsItem.ofLinesFrom 1 (Text.lines "x=1".toList) = [.statement 1 "x=1".toList] := by
    have hlines : Text.lines "x=1".toList = ["x=1".toList] := rfl
    have hcomment : Line.commentBody? "x=1".toList = none := by decide +kernel
    have hjoin : Statement.join "x=1".toList [] = ("x=1".toList, 0) := by decide +kernel
    rw [hlines, DefaultsItem.ofLinesFrom, if_neg (by decide), hcomment]
    dsimp only
    rw [hjoin, List.drop_nil, DefaultsItem.ofLinesFrom]
  rw [LoadedSet.map_key_entries_extract, LoadedSet.leftover, LoadedSet.keyedRecords,
    LoadedSet.declared, hdefaults, hdeclarations]
  simp only [List.map_cons, List.map_nil, DefaultsDocument.parse, hitems]
  decide +kernel

theorem inTree_outcome_oneRecord :
    ∃ c report, inTree {} { sets := [oneRecord "1"] } "now" = .ok (c, report) ∧
      c.size ≤ Text.maxCount ∧ ∃ s, ({} : Store).write c = .ok s ∧ s.read = .ok c := by
  have hkeys : (candidates ([oneRecord "1"].map (SourceSet.loadFrom {}))).map Entry.key = ["x"] := by
    rw [candidates_eq]
    simpa using map_key_oneRecord {} "1"
  have hlabels : ∀ s ∈ [oneRecord "1"], ∃ text, s.version = .ofString text := by
    intro s hs
    rw [List.mem_singleton.mp hs]
    exact ⟨"1", rfl⟩
  rcases inTree_outcome {} { sets := [oneRecord "1"] } "now" with
    ⟨-, hnil⟩ | ⟨-, c, report, hbuild, hcovers, -, hread⟩
  · rw [hnil] at hkeys
    cases hkeys
  · have hsize : c.size ≤ Text.maxCount := by
      have hlength := congrArg List.length hkeys
      rw [List.length_map] at hlength
      calc
        c.size ≤ (candidates ([oneRecord "1"].map (SourceSet.loadFrom {}))).length := hcovers.size_le
        _ = 1 := hlength
        _ ≤ Text.maxCount := by decide
    exact ⟨c, report, hbuild, hsize, hread hlabels hsize⟩

end Build

end NamelistCatalog
