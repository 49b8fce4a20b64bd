import NamelistCatalog.Proofs.Build.Outcome

namespace NamelistCatalog.Build

variable {generatedAt : String} {sets sets' : List LoadedSet}

theorem candidates_perm (h : sets.Perm sets') : (candidates sets).Perm (candidates sets') := by
  rw [candidates_eq, candidates_eq]
  exact h.flatMap_right _

theorem nodup_key_version_candidates (hversions : (sets.map LoadedSet.version).Nodup)
    (hdefaults : ∀ s ∈ sets, (s.documentsOf .defaults).length ≤ 1) :
    ((candidates sets).map fun e => (e.key, e.version)).Nodup := by
  rw [candidates_eq, List.map_flatMap, List.nodup_flatMap]
  refine ⟨?_, ?_⟩
  · intro s hs
    apply List.Nodup.of_map Prod.fst
    rw [List.map_map]
    exact LoadedSet.nodup_keys_extract (hdefaults s hs)
  · refine (List.pairwise_map.mp hversions).imp ?_
    intro s t hne p hs ht
    obtain ⟨a, ha, rfl⟩ := List.mem_map.mp hs
    obtain ⟨b, hb, hab⟩ := List.mem_map.mp ht
    apply hne
    rw [← LoadedSet.version_of_mem_extract ha, ← LoadedSet.version_of_mem_extract hb]
    exact (congrArg Prod.snd hab).symm

theorem Gives.perm {c c' : Catalog} {report report' : BuildReport}
    (h : Gives .versionThenRecency generatedAt sets c report)
    (h' : Gives .versionThenRecency generatedAt sets' c' report') (hperm : sets.Perm sets')
    (hdistinct : ((candidates sets).map fun e => (e.key, e.version)).Nodup) :
    c = c' ∧ report.extracted = report'.extracted ∧ report.skipped = report'.skipped ∧
      report.superseded = report'.superseded ∧ report.entries = report'.entries := by
  have hcandidates := candidates_perm hperm
  have hentries := Merge.entries_perm hcandidates hdistinct
  have hlength := hcandidates.length_eq
  have hsame : c = c' := by
    apply Catalog.ext_fields
    · rw [h.schema, h'.schema]
    · rw [h.version, h'.version, hentries]
    · rw [h.time, h'.time]
    · rw [h.entries, h'.entries, hentries]
  refine ⟨hsame, ?_, ?_, ?_, ?_⟩
  · rw [h.extracted, h'.extracted, hlength]
  · rw [h.skipped, h'.skipped, Extraction.totalSkipped_perm hperm]
  · have hcount := Merge.length_entries_add_overrides .versionThenRecency (candidates sets)
    have hcount' := Merge.length_entries_add_overrides .versionThenRecency (candidates sets')
    rw [hentries] at hcount
    rw [h.superseded, h'.superseded]
    omega
  · rw [h.size, h'.size, hsame]

/-- When versions decide, every set has its own version and no set has two defaults documents, the
sets may come in any order: either no order gives an entry, or all orders give the same catalog and
the same counts. -/
theorem inTree_perm (tree : FileTree) (plan : BuildPlan) (generatedAt : String)
    (hpolicy : plan.policy = .versionThenRecency) (hversions : (plan.sets.map SourceSet.version).Nodup)
    (hdefaults : ∀ s ∈ plan.sets, (s.documentsOf .defaults).length ≤ 1) {sets : List SourceSet}
    (hperm : plan.sets.Perm sets) :
    (inTree tree plan generatedAt = .error .noEntries ∧
        inTree tree { plan with sets } generatedAt = .error .noEntries) ∨
      ∃ c report report', inTree tree plan generatedAt = .ok (c, report) ∧
        inTree tree { plan with sets } generatedAt = .ok (c, report') ∧
        report.extracted = report'.extracted ∧ report.skipped = report'.skipped ∧
        report.superseded = report'.superseded ∧ report.entries = report'.entries := by
  have hloaded := hperm.map (SourceSet.loadFrom tree)
  have hcandidates := candidates_perm hloaded
  rw [inTree_eq, inTree_eq, hpolicy]
  by_cases hne : candidates (plan.sets.map (SourceSet.loadFrom tree)) = []
  · rw [hne] at hcandidates
    exact .inl ⟨ofLoaded_of_nil hne, ofLoaded_of_nil hcandidates.nil_eq.symm⟩
  · right
    have hne' : candidates (sets.map (SourceSet.loadFrom tree)) ≠ [] := by
      intro hnil
      rw [hnil] at hcandidates
      exact hne hcandidates.eq_nil
    -- Loading keeps the versions and the number of documents of each kind.
    have hdistinct : ((candidates (plan.sets.map (SourceSet.loadFrom tree))).map
        fun e => (e.key, e.version)).Nodup := by
      apply nodup_key_version_candidates
      · rw [List.map_map]
        exact hversions
      · intro s hs
        obtain ⟨source, hsource, rfl⟩ := List.mem_map.mp hs
        rw [SourceSet.length_documentsOf_loadFrom]
        exact hdefaults source hsource
    obtain ⟨c, report, hbuild, hgives⟩ := exists_ofLoaded_eq_ok .versionThenRecency generatedAt hne
    obtain ⟨c', report', hbuild', hgives'⟩ :=
      exists_ofLoaded_eq_ok .versionThenRecency generatedAt hne'
    obtain ⟨rfl, hcounts⟩ := hgives.perm hgives' hloaded hdistinct
    exact ⟨c, report, report', hbuild, hbuild', hcounts⟩

/-- Two releases, the later one first. -/
def twoReleases : BuildPlan := { sets := [oneRecord "2", oneRecord "1"] }

theorem candidates_twoReleases :
    candidates (twoReleases.sets.map (SourceSet.loadFrom {})) ≠ [] := by
  have hkeys := map_key_oneRecord {} "2"
  rw [candidates_eq]
  intro hnil
  rw [List.flatMap_eq_nil_iff.mp hnil ((oneRecord "2").loadFrom {}) List.mem_cons_self] at hkeys
  cases hkeys

theorem inTree_perm_twoReleases :
    (twoReleases.sets.map SourceSet.version).Nodup ∧
      (∀ s ∈ twoReleases.sets, (s.documentsOf .defaults).length ≤ 1) ∧
      twoReleases.sets.Perm [oneRecord "1", oneRecord "2"] ∧
      ∃ c report report', inTree {} twoReleases "now" = .ok (c, report) ∧
        inTree {} { twoReleases with sets := [oneRecord "1", oneRecord "2"] } "now" =
          .ok (c, report') ∧
        report.extracted = report'.extracted := by
  have hversions : (twoReleases.sets.map SourceSet.version).Nodup := by decide +kernel
  have hdefaults : ∀ s ∈ twoReleases.sets, (s.documentsOf .defaults).length ≤ 1 := by decide +kernel
  have hperm : twoReleases.sets.Perm [oneRecord "1", oneRecord "2"] := .swap _ _ []
  refine ⟨hversions, hdefaults, hperm, ?_⟩
  rcases inTree_perm {} twoReleases "now" rfl hversions hdefaults hperm with
    ⟨herror, -⟩ | ⟨c, report, report', hbuild, hbuild', hextracted, -⟩
  · obtain ⟨c, report, hbuild, -⟩ :=
      exists_ofLoaded_eq_ok twoReleases.policy "now" candidates_twoReleases
    rw [inTree_eq, hbuild] at herror
    cases herror
  · exact ⟨c, report, report', hbuild, hbuild', hextracted⟩

end NamelistCatalog.Build
