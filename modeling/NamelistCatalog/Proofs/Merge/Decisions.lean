import NamelistCatalog.Proofs.Merge

namespace NamelistCatalog

/-- What a decision records of a candidate: its name, its version and its origin. -/
def Entry.provenance (e : Entry) : String × SourceVersion × String := (e.name, e.version, e.origin)

namespace Override

/-- The candidate that was kept, as the decision records it. -/
def kept (o : Override) : String × SourceVersion × String := (o.name, o.keptVersion, o.keptOrigin)

/-- The candidate that was superseded, as the decision records it. -/
def superseded (o : Override) : String × SourceVersion × String :=
  (o.supersededName, o.supersededVersion, o.supersededOrigin)

end Override

namespace MergePolicy

/-- Which of two candidates of one name is superseded. -/
def discard (policy : MergePolicy) (incumbent challenger : Entry) : Entry :=
  if policy.replaces incumbent challenger then incumbent else challenger

theorem keep_discard_perm (policy : MergePolicy) (a b : Entry) :
    [policy.keep a b, policy.discard a b].Perm [a, b] := by
  unfold keep discard
  split
  · exact .swap _ _ []
  · exact .refl _

theorem isLE_discard_keep (a b : Entry) :
    (compare (versionThenRecency.discard a b).version
      (versionThenRecency.keep a b).version).isLE = true := by
  obtain ⟨ha, hb⟩ := isLE_keep a b
  have hmem := (versionThenRecency.keep_discard_perm a b).mem_iff
    (a := versionThenRecency.discard a b)
  have hdiscard := hmem.mp (by simp)
  rw [List.mem_pair] at hdiscard
  rcases hdiscard with h | h
  · rw [h]
    exact ha
  · rw [h]
    exact hb

end MergePolicy

namespace Merge

/-- The decision that one more candidate brings about, if its name is taken. -/
def Survivors.decision? (survivors : Survivors) (policy : MergePolicy) (candidate : Entry) :
    Option Override :=
  (survivors.lookup candidate.key).map fun incumbent =>
    Override.of (policy.keep incumbent candidate) (policy.discard incumbent candidate)

/-- A decision of the policy between two of the candidates, which have one folded name. -/
structure Decides (policy : MergePolicy) (candidates : List Entry) (o : Override) : Prop where
  kept : o.kept ∈ candidates.map Entry.provenance
  superseded : o.superseded ∈ candidates.map Entry.provenance
  sameName : Name.fold o.name = Name.fold o.supersededName
  notLower : policy = .versionThenRecency →
    (compare o.supersededVersion o.keptVersion).isLE = true

/-- What a merge has to account for: each candidate is an entry or was superseded by one decision, as
often as it was given, and the decisions are right. -/
structure Conserves (policy : MergePolicy) (candidates : List Entry) (merge : Merge) : Prop where
  balance : (candidates.map Entry.provenance).Perm
    (merge.entries.map Entry.provenance ++ merge.overrides.map Override.superseded)
  decides : ∀ o ∈ merge.overrides, Decides policy candidates o

variable {policy : MergePolicy} {survivors : Survivors} {candidates : List Entry}
  {candidate incumbent : Entry}

theorem run_eq_enter (policy : MergePolicy) (survivors : Survivors) (candidate : Entry)
    (rest : List Entry) :
    run policy survivors (candidate :: rest) =
      ((run policy (survivors.enter policy candidate) rest).1,
        (survivors.decision? policy candidate).toList ++
          (run policy (survivors.enter policy candidate) rest).2) := by
  rw [run, Survivors.enter, Survivors.decision?]
  cases survivors.lookup candidate.key with
  | none => rfl
  | some incumbent =>
      cases hreplaces : policy.replaces incumbent candidate <;>
        simp [hreplaces, MergePolicy.keep, MergePolicy.discard]

theorem Survivors.replace_of_not_mem {key : String} (h : key ∉ survivors.map Prod.fst) (e : Entry) :
    survivors.replace key e = survivors := by
  have hsame : ∀ p ∈ survivors, (if p.1 == key then (key, e) else p) = p := by
    intro p hp
    rw [if_neg]
    rw [beq_iff_eq]
    rintro rfl
    exact h (List.mem_map_of_mem hp)
  exact (List.map_congr_left hsame).trans (List.map_id' survivors)

theorem Survivors.Keyed.exists_enter_eq (h : survivors.Keyed) (policy : MergePolicy)
    (hlookup : survivors.lookup candidate.key = some incumbent) :
    ∃ before after, survivors = before ++ (candidate.key, incumbent) :: after ∧
      survivors.enter policy candidate =
        before ++ (candidate.key, policy.keep incumbent candidate) :: after := by
  obtain ⟨before, after, rfl, -⟩ := List.lookup_eq_some_iff.mp hlookup
  refine ⟨before, after, rfl, ?_⟩
  have hkeys := h.nodup
  rw [List.map_append, List.map_cons, List.nodup_middle, List.nodup_cons, List.mem_append,
    not_or] at hkeys
  obtain ⟨⟨hbefore, hafter⟩, -⟩ := hkeys
  rw [Survivors.enter, hlookup]
  dsimp only
  unfold MergePolicy.keep
  split
  · have hreplace : Survivors.replace (before ++ (candidate.key, incumbent) :: after) candidate.key
        candidate = Survivors.replace before candidate.key candidate ++
          (candidate.key, candidate) :: Survivors.replace after candidate.key candidate := by
      simp [Survivors.replace]
    rw [hreplace, Survivors.replace_of_not_mem hbefore, Survivors.replace_of_not_mem hafter]
  · rfl

theorem Survivors.Keyed.enter_perm (h : survivors.Keyed) (policy : MergePolicy)
    (candidate : Entry) :
    (survivors.map (fun p => p.2.provenance) ++ [candidate.provenance]).Perm
      ((survivors.enter policy candidate).map (fun p => p.2.provenance) ++
        (survivors.decision? policy candidate).toList.map Override.superseded) := by
  cases hlookup : survivors.lookup candidate.key with
  | none =>
      rw [Survivors.enter, Survivors.decision?, hlookup]
      simp
  | some incumbent =>
      obtain ⟨before, after, hbefore, hafter⟩ := h.exists_enter_eq policy hlookup
      have hpair := (policy.keep_discard_perm incumbent candidate).symm.map Entry.provenance
      rw [hafter, Survivors.decision?, hlookup, hbefore]
      simp only [List.map_append, List.map_cons, List.append_assoc, List.cons_append,
        Option.map_some, Option.toList_some, List.map_nil]
      -- Both candidates of the decision are there afterwards, one of them as superseded.
      have htogether := (List.perm_append_singleton candidate.provenance
        (after.map fun p => p.2.provenance)).cons incumbent.provenance
      have hapart := (List.perm_append_singleton (policy.discard incumbent candidate).provenance
        (after.map fun p => p.2.provenance)).cons (policy.keep incumbent candidate).provenance
      exact (htogether.trans ((hpair.append_right _).trans hapart.symm)).append_left _

theorem Survivors.Keyed.run_perm (h : survivors.Keyed) (candidates : List Entry) :
    (survivors.map (fun p => p.2.provenance) ++ candidates.map Entry.provenance).Perm
      ((Merge.run policy survivors candidates).1.map (fun p => p.2.provenance) ++
        (Merge.run policy survivors candidates).2.map Override.superseded) := by
  induction candidates generalizing survivors with
  | nil => simp [Merge.run]
  | cons candidate rest ih =>
      have hentered : (survivors.enter policy candidate).Keyed := h.enter candidate
      have hstep := (h.enter_perm policy candidate).append_right (rest.map Entry.provenance)
      have hrest := (ih hentered).append_left
        ((survivors.decision? policy candidate).toList.map Override.superseded)
      rw [List.append_assoc] at hstep
      rw [run_eq_enter, List.map_cons, List.map_append]
      refine hstep.trans ?_
      rw [List.append_assoc]
      -- The run of the rest starts where the first candidate has been entered.
      exact (List.perm_append_comm_assoc _ _ _).trans
        (hrest.trans (List.perm_append_comm_assoc _ _ _))

theorem Survivors.Keyed.decides_decision? (h : survivors.Keyed)
    (hsurvivors : ∀ p ∈ survivors, p.2 ∈ candidates) (hcandidate : candidate ∈ candidates) {o : Override}
    (ho : o ∈ survivors.decision? policy candidate) : Decides policy candidates o := by
  obtain ⟨incumbent, hlookup, rfl⟩ := Option.map_eq_some_iff.mp ho
  have hmem := Association.mem_of_lookup hlookup
  have hkey : candidate.key = incumbent.key := h.keys _ hmem
  have hpair := policy.keep_discard_perm incumbent candidate
  have hboth : ∀ e ∈ [policy.keep incumbent candidate, policy.discard incumbent candidate],
      e ∈ candidates ∧ e.key = candidate.key := by
    intro e he
    rcases List.mem_pair.mp (hpair.mem_iff.mp he) with rfl | rfl
    · exact ⟨hsurvivors _ hmem, hkey.symm⟩
    · exact ⟨hcandidate, rfl⟩
  obtain ⟨hkept, hkeptKey⟩ := hboth (policy.keep incumbent candidate) (by simp)
  obtain ⟨hdiscarded, hdiscardedKey⟩ := hboth (policy.discard incumbent candidate) (by simp)
  exact
    { kept := List.mem_map_of_mem hkept
      superseded := List.mem_map_of_mem hdiscarded
      sameName := hkeptKey.trans hdiscardedKey.symm
      notLower := by
        rintro rfl
        exact MergePolicy.isLE_discard_keep incumbent candidate }

theorem Survivors.mem_enter (h : ∀ p ∈ survivors, p.2 ∈ candidates)
    (hcandidate : candidate ∈ candidates) :
    ∀ p ∈ survivors.enter policy candidate, p.2 ∈ candidates := by
  unfold Survivors.enter
  split
  · exact List.forall_mem_cons.mpr ⟨hcandidate, h⟩
  · split
    · intro p hp
      obtain ⟨old, hold, rfl⟩ := List.mem_map.mp hp
      split
      · exact hcandidate
      · exact h old hold
    · exact h

theorem Survivors.Keyed.decides_run (h : survivors.Keyed)
    (hsurvivors : ∀ p ∈ survivors, p.2 ∈ candidates) {rest : List Entry} (hrest : rest ⊆ candidates) :
    ∀ o ∈ (Merge.run policy survivors rest).2, Decides policy candidates o := by
  induction rest generalizing survivors with
  | nil => simp [Merge.run]
  | cons candidate rest ih =>
      obtain ⟨hcandidate, hrest⟩ := List.cons_subset.mp hrest
      intro o ho
      rw [run_eq_enter, List.mem_append, Option.mem_toList] at ho
      rcases ho with ho | ho
      · exact h.decides_decision? hsurvivors hcandidate ho
      · exact ih (h.enter candidate) (Survivors.mem_enter hsurvivors hcandidate) hrest o ho

/-- A merge loses no candidate and makes up none, and each of its decisions is one that the policy
takes between two candidates of one name. -/
theorem conserves (policy : MergePolicy) (candidates : List Entry) :
    (ofCandidates policy candidates).Conserves policy candidates where
  balance := by
    have hentries := (entries_perm_run policy candidates).map Entry.provenance
    rw [List.map_map] at hentries
    exact (Survivors.keyed_nil.run_perm candidates).trans (hentries.symm.append_right _)
  decides := Survivors.keyed_nil.decides_run (by simp) (List.Subset.refl candidates)

end Merge

end NamelistCatalog
