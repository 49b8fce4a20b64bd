import NamelistCatalog.Proofs.Build.Accounts

namespace NamelistCatalog

/-- The version is one of these, and none of them is higher. -/
structure SourceVersion.IsHighest (v : SourceVersion) (versions : List SourceVersion) : Prop where
  mem : v ∈ versions
  isLE : ∀ w ∈ versions, (Ord.compare w v).isLE = true

theorem SourceVersion.isHighest_maximum {versions : List SourceVersion} (h : versions ≠ []) :
    (maximum versions).IsHighest versions :=
  ⟨maximum_mem h, fun _ => isLE_maximum⟩

namespace Merge

variable {candidates : List Entry}

theorem exists_mem_entries_isLE {e : Entry} (h : e ∈ candidates) :
    ∃ kept ∈ (ofCandidates .versionThenRecency candidates).entries,
      (compare e.version kept.version).isLE = true := by
  obtain ⟨kept, hkept, hkey⟩ := List.mem_map.mp
    ((mem_keys_entries_iff .versionThenRecency candidates e.key).mpr (List.mem_map_of_mem h))
  have hrival : e ∈ candidates.filter fun c => c.key == kept.key :=
    List.mem_filter.mpr ⟨h, beq_iff_eq.mpr hkey.symm⟩
  exact ⟨kept, hkept, (MergePolicy.isLE_survivor (mem_entries_iff.mp hkept)).2 e hrival⟩

/-- What is left has the same highest version as the candidates. -/
theorem isHighest_maximum_entries (h : candidates ≠ []) :
    (SourceVersion.maximum ((ofCandidates .versionThenRecency candidates).entries.map
      Entry.version)).IsHighest (candidates.map Entry.version) := by
  have hne : (ofCandidates .versionThenRecency candidates).entries.map Entry.version ≠ [] := by
    rw [ne_eq, List.map_eq_nil_iff, entries_eq_nil_iff]
    exact h
  have hhighest := SourceVersion.isHighest_maximum hne
  constructor
  · obtain ⟨e, he, hversion⟩ := List.mem_map.mp hhighest.mem
    rw [← hversion]
    exact List.mem_map_of_mem (mem_of_mem_entries he)
  · intro w hw
    obtain ⟨e, he, rfl⟩ := List.mem_map.mp hw
    obtain ⟨kept, hkept, hle⟩ := exists_mem_entries_isLE he
    exact Std.TransCmp.isLE_trans hle (hhighest.isLE _ (List.mem_map_of_mem hkept))

end Merge

namespace Build

variable {policy : MergePolicy} {generatedAt : String} {sets : List LoadedSet} {c : Catalog}
  {report : BuildReport}

theorem sourceVersion_of_ofLoaded (h : ofLoaded policy generatedAt sets = .ok (c, report)) :
    report.sourceVersion = c.info.sourceVersion := by
  unfold ofLoaded at h
  dsimp only at h
  split at h
  · cases h
  · split at h
    · cases h
    · obtain ⟨rfl, rfl⟩ := Prod.mk.inj (Except.ok.inj h)
      rfl

/-- A catalog that documents the newest release of the candidates, by an entry of its own. -/
structure DocumentsNewest (c : Catalog) (candidates : List Entry) : Prop where
  highest : c.info.sourceVersion.IsHighest (candidates.map Entry.version)
  entry : ∃ e ∈ c.entries.toList, e.version = c.info.sourceVersion

theorem documentsNewest_of_ofLoaded
    (h : ofLoaded .versionThenRecency generatedAt sets = .ok (c, report)) :
    DocumentsNewest c (candidates sets) := by
  have hgives := gives_of_ofLoaded h
  have hne := candidates_ne_nil_of_ofLoaded h
  have hleft : (Merge.ofCandidates .versionThenRecency (candidates sets)).entries.map
      Entry.version ≠ [] := by
    rw [ne_eq, List.map_eq_nil_iff, Merge.entries_eq_nil_iff]
    exact hne
  constructor
  · rw [hgives.version]
    exact Merge.isHighest_maximum_entries hne
  · rw [hgives.version, hgives.entries]
    exact List.mem_map.mp (SourceVersion.maximum_mem hleft)

/-- Where versions decide, every build that succeeds documents the newest release among all candidates,
those that were superseded included, and its report names that release, also when it is published. -/
theorem inTree_documentsNewest [Sqlite] (tree : FileTree) (plan : BuildPlan) (mesaDir : Option String)
    (generatedAt : String) (hpolicy : plan.policy = .versionThenRecency) :
    (∀ c report, inTree tree plan generatedAt = .ok (c, report) →
        DocumentsNewest c (candidates (plan.sets.map (SourceSet.loadFrom tree))) ∧
          report.sourceVersion = c.info.sourceVersion) ∧
      ∀ report, publishInTree tree plan mesaDir generatedAt = .ok report →
        report.sourceVersion.IsHighest
          ((candidates (plan.sets.map (SourceSet.loadFrom tree))).map Entry.version) := by
  have hbuild : ∀ c report, inTree tree plan generatedAt = .ok (c, report) →
      DocumentsNewest c (candidates (plan.sets.map (SourceSet.loadFrom tree))) ∧
        report.sourceVersion = c.info.sourceVersion := by
    intro c report h
    rw [inTree_eq, hpolicy] at h
    exact ⟨documentsNewest_of_ofLoaded h, sourceVersion_of_ofLoaded h⟩
  refine ⟨hbuild, ?_⟩
  intro report h
  obtain ⟨c, built, artifact, backup, hbuilt, rfl⟩ := exists_inTree_of_publishInTree h
  obtain ⟨hnewest, hversion⟩ := hbuild c built hbuilt
  change built.sourceVersion.IsHighest _
  rw [hversion]
  exact hnewest.highest

/-- Releases of one parameter. The newest comes twice, and as text it would come before the others. -/
def repeatedNewest : BuildPlan := { sets := ["3", "10", "10", "2"].map oneRecord }

theorem inTree_documentsNewest_repeatedNewest :
    repeatedNewest.policy = .versionThenRecency ∧
      ∃ c report, inTree {} repeatedNewest "now" = .ok (c, report) ∧
        DocumentsNewest c (candidates (repeatedNewest.sets.map (SourceSet.loadFrom {}))) ∧
        (c.info.sourceVersion, report.superseded) = (⟨"10"⟩, 3) := by
  have hpolicy : repeatedNewest.policy = .versionThenRecency := rfl
  obtain ⟨hnewest, -⟩ := inTree_documentsNewest {} repeatedNewest none "now" hpolicy
  have hrun : (inTree {} repeatedNewest "now").toOption.map
      (fun p => (p.1.info.sourceVersion, p.2.superseded)) = some (⟨"10"⟩, 3) := by
    decide +kernel
  refine ⟨hpolicy, ?_⟩
  cases h : inTree {} repeatedNewest "now" with
  | error e =>
      rw [h] at hrun
      cases hrun
  | ok p =>
      rw [h] at hrun
      exact ⟨p.1, p.2, rfl, (hnewest p.1 p.2 h).1, Option.some.inj hrun⟩

end Build

end NamelistCatalog
