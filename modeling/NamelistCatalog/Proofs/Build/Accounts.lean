import NamelistCatalog.Proofs.Build.Outcome
import NamelistCatalog.Proofs.Extraction.Accounts
import NamelistCatalog.Proofs.Store.Image

namespace NamelistCatalog

/-- The counts of a report agree with each other and with its warnings. -/
structure BuildReport.Balances (r : BuildReport) : Prop where
  extracted : r.extracted = r.entries + r.superseded
  superseded : Warning.count .superseded r.warnings = r.superseded
  skipped : Warning.count .malformedRecord r.warnings = r.skipped

namespace Build

variable {policy : MergePolicy} {generatedAt : String} {sets : List LoadedSet} {tree : FileTree}
  {plan : BuildPlan} {mesaDir : Option String} {c : Catalog} {report : BuildReport}

/-- What publishing the build of a plan in a tree of files reports. -/
def publishInTree [Sqlite] (tree : FileTree) (plan : BuildPlan) (mesaDir : Option String)
    (generatedAt : String) : Except BuildError BuildReport :=
  ((publish plan mesaDir generatedAt : ExceptT BuildError (StateM FileTree) _).run.run tree).1

theorem candidates_ne_nil_of_ofLoaded (h : ofLoaded policy generatedAt sets = .ok (c, report)) :
    candidates sets ≠ [] := by
  intro hnil
  rw [ofLoaded_of_nil hnil] at h
  cases h

theorem gives_of_ofLoaded (h : ofLoaded policy generatedAt sets = .ok (c, report)) :
    Gives policy generatedAt sets c report := by
  obtain ⟨c', report', hbuild, hgives⟩ :=
    exists_ofLoaded_eq_ok policy generatedAt (candidates_ne_nil_of_ofLoaded h)
  obtain ⟨rfl, rfl⟩ := Prod.mk.inj (Except.ok.inj (hbuild.symm.trans h))
  exact hgives

theorem warnings_of_ofLoaded (h : ofLoaded policy generatedAt sets = .ok (c, report)) :
    report.warnings = (Extraction.ofSets sets).drain.2.warnings ++
      (Merge.ofCandidates policy (candidates sets)).overrides.map Override.warning := by
  unfold ofLoaded at h
  dsimp only at h
  split at h
  · cases h
  · split at h
    · cases h
    · obtain ⟨-, rfl⟩ := Prod.mk.inj (Except.ok.inj h)
      rfl

theorem count_superseded_warnings (overrides : List Override) :
    Warning.count .superseded (overrides.map Override.warning) = overrides.length := by
  rw [Warning.count_eq_length, List.length_map]
  intro w hw
  obtain ⟨o, -, rfl⟩ := List.mem_map.mp hw
  rfl

theorem count_malformed_warnings (overrides : List Override) :
    Warning.count .malformedRecord (overrides.map Override.warning) = 0 := by
  apply Warning.count_eq_zero
  intro w hw
  obtain ⟨o, -, rfl⟩ := List.mem_map.mp hw
  nofun

theorem balances_of_ofLoaded (h : ofLoaded policy generatedAt sets = .ok (c, report)) :
    report.Balances := by
  have hgives := gives_of_ofLoaded h
  have hwarnings := warnings_of_ofLoaded h
  have hdrain := Extraction.balances_drain sets
  constructor
  · have hsize : c.size = (Merge.ofCandidates policy (candidates sets)).entries.length := by
      rw [← hgives.entries]
      rfl
    rw [hgives.extracted, hgives.size, hgives.superseded, hsize]
    exact (Merge.length_entries_add_overrides policy (candidates sets)).symm
  · rw [hwarnings, Warning.count_append, hdrain.superseded, count_superseded_warnings, Nat.zero_add,
      hgives.superseded]
  · rw [hwarnings, Warning.count_append, count_malformed_warnings, Nat.add_zero, ← hdrain.skipped,
      hgives.skipped]
    exact (Extraction.drain_ofSets sets).2

theorem exists_inTree_of_publishInTree [Sqlite]
    (h : publishInTree tree plan mesaDir generatedAt = .ok report) :
    ∃ c built artifact backup, inTree tree plan generatedAt = .ok (c, built) ∧
      report = { built with artifact, backup } := by
  obtain ⟨output, t, houtput, h⟩ := exists_of_run_bind h
  obtain ⟨-, rfl⟩ := Prod.mk.inj houtput
  obtain ⟨⟨c, built⟩, t, hbuilt, h⟩ := exists_of_run_bind h
  obtain ⟨published, t, -, h⟩ := exists_of_run_bind h
  exact ⟨c, built, some published.path, published.backup, congrArg Prod.fst hbuilt,
    (Except.ok.inj h).symm⟩

/-- At every call of an extraction, what was skipped and the documents that were read agree with the
warnings, and so do the counts of every build that succeeds, whether it is published or not. -/
theorem accounts_balance [Sqlite] (sets : List LoadedSet) (calls : Nat) (tree : FileTree) (plan : BuildPlan)
    (mesaDir : Option String) (generatedAt : String) :
    (∃ read, sets = read ++ ((Extraction.ofSets sets).after calls).pending ∧
        ((Extraction.ofSets sets).after calls).summary.Balances read) ∧
      (∀ c report, inTree tree plan generatedAt = .ok (c, report) → report.Balances) ∧
      ∀ report, publishInTree tree plan mesaDir generatedAt = .ok report → report.Balances := by
  have hbuild : ∀ c report, inTree tree plan generatedAt = .ok (c, report) → report.Balances := by
    intro c report h
    rw [inTree_eq] at h
    exact balances_of_ofLoaded h
  refine ⟨Extraction.exists_balances_after sets calls, hbuild, ?_⟩
  intro report h
  obtain ⟨c, built, artifact, backup, hbuilt, rfl⟩ := exists_inTree_of_publishInTree h
  have hbalances := hbuild c built hbuilt
  exact ⟨hbalances.extracted, hbalances.superseded, hbalances.skipped⟩

/-- Two releases of one parameter, the later one with a statement that is no assignment and a document
that is not there. -/
def faultyReleases : BuildPlan :=
  { sets :=
      [{ namelist := "n"
         version := .ofString "2"
         documents := [⟨.defaults, .text "a" "x=1\ny"⟩, ⟨.declarations, .file (.ofText "missing.inc")⟩] },
        oneRecord "1"]
    output := some (.ofText "mesa.db") }

theorem accounts_balance_faultyReleases :
    (∃ c report, inTree {} faultyReleases "now" = .ok (c, report) ∧ report.Balances ∧
        (report.extracted, report.entries, report.superseded, report.skipped) = (2, 1, 1, 1)) ∧
      ∃ report, publishInTree {} faultyReleases none "now" = .ok report ∧ report.Balances ∧
        report.artifact = some (.ofText "mesa.db") := by
  obtain ⟨-, hbuild, hpublish⟩ := accounts_balance [] 0 {} faultyReleases none "now"
  constructor
  · have hrun : (inTree {} faultyReleases "now").toOption.map
        (fun p => (p.2.extracted, p.2.entries, p.2.superseded, p.2.skipped)) = some (2, 1, 1, 1) := by
      decide +kernel
    cases h : inTree {} faultyReleases "now" with
    | error e =>
        rw [h] at hrun
        cases hrun
    | ok p =>
        rw [h] at hrun
        exact ⟨p.1, p.2, rfl, hbuild p.1 p.2 h, Option.some.inj hrun⟩
  · have hrun : (publishInTree {} faultyReleases none "now").toOption.map BuildReport.artifact =
        some (some (.ofText "mesa.db")) := by decide +kernel
    cases h : publishInTree {} faultyReleases none "now" with
    | error e =>
        rw [h] at hrun
        cases hrun
    | ok report =>
        rw [h] at hrun
        exact ⟨report, rfl, hpublish report h, Option.some.inj hrun⟩

end Build

end NamelistCatalog
