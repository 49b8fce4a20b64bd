import NamelistCatalog.Proofs.Merge.Decisions

/-!
Merging in stages. A merge may start from what an earlier merge has left: although that is listed by
name and no longer in the order in which it came, the same entries are left in the end, and the
decisions are those of the first stage followed by those of the second.
-/

namespace NamelistCatalog.Merge

variable {policy : MergePolicy} {survivors survivors' : Survivors} {candidates : List Entry}

theorem run_append (policy : MergePolicy) (survivors : Survivors) (earlier later : List Entry) :
    run policy survivors (earlier ++ later) =
      ((run policy (run policy survivors earlier).1 later).1,
        (run policy survivors earlier).2 ++ (run policy (run policy survivors earlier).1 later).2) := by
  induction earlier generalizing survivors with
  | nil => rfl
  | cons candidate rest ih =>
      rw [List.cons_append, run_eq_enter, run_eq_enter, ih, List.append_assoc]

theorem overrides_run_congr (h : ∀ key, survivors.lookup key = survivors'.lookup key)
    (candidates : List Entry) :
    (run policy survivors candidates).2 = (run policy survivors' candidates).2 := by
  induction candidates generalizing survivors survivors' with
  | nil => rfl
  | cons candidate rest ih =>
      have henter : ∀ key, (survivors.enter policy candidate).lookup key =
          (survivors'.enter policy candidate).lookup key := by
        intro key
        rw [lookup_enter, lookup_enter, h key]
      rw [run_eq_enter, run_eq_enter, Survivors.decision?, Survivors.decision?, h candidate.key,
        ih henter]

theorem run_of_nodup (hkeys : (candidates.map Entry.key).Nodup)
    (hfresh : ∀ e ∈ candidates, survivors.lookup e.key = none) :
    run policy survivors candidates =
      ((candidates.map fun e => (e.key, e)).reverse ++ survivors, []) := by
  induction candidates generalizing survivors with
  | nil => rfl
  | cons candidate rest ih =>
      rw [List.map_cons, List.nodup_cons] at hkeys
      obtain ⟨hcandidate, hrest⟩ := List.forall_mem_cons.mp hfresh
      have hlater : ∀ e ∈ rest, List.lookup e.key ((candidate.key, candidate) :: survivors) = none := by
        intro e he
        have hne : (e.key == candidate.key) = false := by
          rw [beq_eq_false_iff_ne]
          intro hkey
          exact hkeys.1 (hkey ▸ List.mem_map_of_mem he)
        rw [List.lookup_cons, hne]
        exact hrest e he
      rw [run, hcandidate]
      dsimp only
      rw [ih hkeys.2 hlater]
      simp

theorem ofCandidates_of_listed (h : candidates.Pairwise fun a b => a.key < b.key) :
    ofCandidates policy candidates = { entries := candidates, overrides := [] } := by
  have hne : candidates.Pairwise fun a b => a.key ≠ b.key := by
    refine h.imp ?_
    intro a b hlt heq
    rw [heq] at hlt
    exact String.lt_irrefl _ hlt
  have hrun : run policy [] candidates = ((candidates.map fun e => (e.key, e)).reverse ++ [], []) :=
    run_of_nodup (List.pairwise_map.mpr hne) (by simp)
  have hsurvivors : ((candidates.map fun e : Entry => (e.key, e)).reverse ++ []).map Prod.snd =
      candidates.reverse := by
    simp [Function.comp_def]
  have hperm : (Entry.sortByName candidates.reverse).Perm candidates :=
    (Entry.sortByName_perm _).trans candidates.reverse_perm
  have hlisted := Entry.pairwise_key_lt_sortByName
    (hperm.symm.pairwise hne fun hab => Ne.symm hab)
  rw [ofCandidates, hrun]
  dsimp only
  rw [hsurvivors, Entry.eq_of_perm_of_pairwise_key_lt hperm hlisted h]

theorem mem_entries_iff_lookup {e : Entry} :
    e ∈ (ofCandidates policy candidates).entries ↔
      (run policy [] candidates).1.lookup e.key = some e := by
  rw [mem_entries_iff, lookup_run, List.lookup_nil]

theorem lookup_run_eq_some_iff {key : String} {e : Entry} :
    (run policy [] candidates).1.lookup key = some e ↔
      e ∈ (ofCandidates policy candidates).entries ∧ e.key = key := by
  constructor
  · intro h
    have hkey := (keyed_run policy candidates).keys _ (Association.mem_of_lookup h)
    obtain rfl : key = e.key := hkey
    exact ⟨mem_entries_iff_lookup.mpr h, rfl⟩
  · rintro ⟨h, rfl⟩
    exact mem_entries_iff_lookup.mp h

theorem lookup_run_entries (policy : MergePolicy) (candidates : List Entry) (key : String) :
    (run policy [] (ofCandidates policy candidates).entries).1.lookup key =
      (run policy [] candidates).1.lookup key := by
  ext e
  rw [lookup_run_eq_some_iff, lookup_run_eq_some_iff,
    ofCandidates_of_listed (pairwise_key_lt_entries policy candidates)]

/-- Merging what is left of earlier candidates with later ones leaves what merging all of them at once
leaves, and the decisions at once are those of the two stages, one after the other. -/
theorem ofCandidates_append (policy : MergePolicy) (earlier later : List Entry) :
    (ofCandidates policy ((ofCandidates policy earlier).entries ++ later)).entries =
        (ofCandidates policy (earlier ++ later)).entries ∧
      (ofCandidates policy (earlier ++ later)).overrides =
        (ofCandidates policy earlier).overrides ++
          (ofCandidates policy ((ofCandidates policy earlier).entries ++ later)).overrides := by
  -- Up to the order of the survivors, both runs stand alike when the later candidates come.
  have hsame := lookup_run_entries policy earlier
  constructor
  · apply entries_eq_of_mem_iff
    intro e
    have hatOnce := lookup_run policy (run policy [] earlier).1 later e.key
    have hstaged :=
      lookup_run policy (run policy [] (ofCandidates policy earlier).entries).1 later e.key
    rw [hsame, ← hatOnce] at hstaged
    rw [mem_entries_iff_lookup, mem_entries_iff_lookup, run_append, run_append]
    dsimp only
    rw [hstaged]
  · have hfirst : (run policy [] (ofCandidates policy earlier).entries).2 = [] :=
      congrArg Merge.overrides (ofCandidates_of_listed (pairwise_key_lt_entries policy earlier))
    have hatOnce := congrArg Prod.snd (run_append policy [] earlier later)
    have hstaged := congrArg Prod.snd (run_append policy [] (ofCandidates policy earlier).entries later)
    rw [hfirst, List.nil_append, overrides_run_congr hsame later] at hstaged
    calc
      (ofCandidates policy (earlier ++ later)).overrides =
          (run policy [] earlier).2 ++ (run policy (run policy [] earlier).1 later).2 := hatOnce
      _ = _ := congrArg _ hstaged.symm

end NamelistCatalog.Merge
