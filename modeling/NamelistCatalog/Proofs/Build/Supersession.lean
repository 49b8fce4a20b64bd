import NamelistCatalog.Proofs.Build.Accounts
import NamelistCatalog.Proofs.Merge.Decisions

namespace NamelistCatalog.Build

variable {policy : MergePolicy} {generatedAt : String} {sets : List LoadedSet} {c : Catalog}
  {report : BuildReport}

/-- How a build reports that candidates were superseded: behind the warnings of the extraction, none
of which is about that, by one warning for each decision. -/
structure Announces (sets : List LoadedSet) (overrides : List Override) (warnings : List Warning) :
    Prop where
  behind : warnings = (Extraction.ofSets sets).drain.2.warnings ++ overrides.map Override.warning
  superseded : (warnings.filter fun w => w.kind == .superseded) = overrides.map Override.warning

theorem announces_of_ofLoaded (h : ofLoaded policy generatedAt sets = .ok (c, report)) :
    Announces sets (Merge.ofCandidates policy (candidates sets)).overrides report.warnings where
  behind := warnings_of_ofLoaded h
  superseded := by
    have hextraction := (Extraction.balances_drain sets).superseded
    have hnone : ((Extraction.ofSets sets).drain.2.warnings.filter
        fun w => w.kind == .superseded) = [] := by
      rw [← List.length_eq_zero_iff, ← List.countP_eq_length_filter]
      exact hextraction
    have hall : ∀ w ∈ (Merge.ofCandidates policy (candidates sets)).overrides.map Override.warning,
        (w.kind == .superseded) = true := by
      intro w hw
      obtain ⟨o, -, rfl⟩ := List.mem_map.mp hw
      rfl
    rw [warnings_of_ofLoaded h, List.filter_append, hnone, List.nil_append,
      List.filter_eq_self.mpr hall]

/-- Under every policy the candidates of a merge are its entries and those that its decisions
superseded, each as often as it was given. A build that succeeds announces the decisions one by one,
after all warnings of the extraction. -/
theorem supersessions_accounted (policy : MergePolicy) (entries : List Entry) (tree : FileTree)
    (plan : BuildPlan) (generatedAt : String) :
    (Merge.ofCandidates policy entries).Conserves policy entries ∧
      ∀ c report, inTree tree plan generatedAt = .ok (c, report) →
        Announces (plan.sets.map (SourceSet.loadFrom tree))
          (Merge.ofCandidates plan.policy
            (candidates (plan.sets.map (SourceSet.loadFrom tree)))).overrides
          report.warnings := by
  refine ⟨Merge.conserves policy entries, ?_⟩
  intro c report h
  rw [inTree_eq] at h
  exact announces_of_ofLoaded h

/-- Three releases of one parameter, the first one neither the oldest nor the newest. -/
def threeReleases : BuildPlan := { sets := [oneRecord "2", oneRecord "1", oneRecord "3"] }

/-- Three candidates of one folded name, of which the first wins one decision and loses another. -/
def threeCandidates : List Entry :=
  [{ name := "x", version := ⟨"2"⟩, origin := "a" }, { name := "X", version := ⟨"1"⟩, origin := "b" },
    { name := "x", version := ⟨"3"⟩, origin := "c" }]

theorem supersessions_accounted_threeReleases :
    (Merge.ofCandidates .versionThenRecency threeCandidates).Conserves .versionThenRecency
        threeCandidates ∧
      (Merge.ofCandidates .versionThenRecency threeCandidates).overrides.map Override.superseded =
        [("X", ⟨"1"⟩, "b"), ("x", ⟨"2"⟩, "a")] ∧
      ∃ c report, inTree {} threeReleases "now" = .ok (c, report) ∧
        Announces (threeReleases.sets.map (SourceSet.loadFrom {}))
          (Merge.ofCandidates threeReleases.policy
            (candidates (threeReleases.sets.map (SourceSet.loadFrom {})))).overrides
          report.warnings ∧
        report.warnings.map Warning.detail =
          ["version 1 replaced by version 2 from a", "version 2 replaced by version 3 from a"] := by
  obtain ⟨hconserves, hannounces⟩ :=
    supersessions_accounted .versionThenRecency threeCandidates {} threeReleases "now"
  refine ⟨hconserves, by decide +kernel, ?_⟩
  have hrun : (inTree {} threeReleases "now").toOption.map
      (fun p => p.2.warnings.map Warning.detail) =
        some ["version 1 replaced by version 2 from a", "version 2 replaced by version 3 from a"] := by
    decide +kernel
  cases h : inTree {} threeReleases "now" with
  | error e =>
      rw [h] at hrun
      cases hrun
  | ok p =>
      rw [h] at hrun
      exact ⟨p.1, p.2, rfl, hannounces p.1 p.2 h, Option.some.inj hrun⟩

end NamelistCatalog.Build
