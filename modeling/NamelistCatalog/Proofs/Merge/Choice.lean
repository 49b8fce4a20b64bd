import Mathlib.Data.List.Induction
import NamelistCatalog.Proofs.Merge

namespace NamelistCatalog

namespace MergePolicy

/-- The candidates of the highest version among them. -/
def newest (candidates : List Entry) : List Entry :=
  candidates.filter fun c => candidates.all fun other => (compare other.version c.version).isLE

/-- The candidate that a policy chooses from all candidates of one name. -/
def choose? : MergePolicy → List Entry → Option Entry
  | .versionThenRecency, candidates => (newest candidates).getLast?
  | .firstWins, candidates => candidates.head?
  | .lastWins, candidates => candidates.getLast?

variable {policy : MergePolicy} {candidates : List Entry} {b e : Entry}

theorem mem_newest_iff :
    e ∈ newest candidates ↔
      e ∈ candidates ∧ ∀ other ∈ candidates, (compare other.version e.version).isLE = true := by
  rw [newest, List.mem_filter, List.all_eq_true]

theorem getLast?_newest_concat (hb : b ∈ newest candidates)
    (hle : (compare b.version e.version).isLE = true) :
    (newest (candidates ++ [e])).getLast? = some e := by
  have hall : ((candidates ++ [e]).all fun other => (compare other.version e.version).isLE) = true := by
    refine List.all_eq_true.mpr ?_
    intro other hother
    rcases List.mem_append.mp hother with hother | hother
    · exact Std.TransCmp.isLE_trans ((mem_newest_iff.mp hb).2 other hother) hle
    · rw [List.mem_singleton.mp hother]
      exact Std.ReflCmp.isLE_rfl
  rw [newest, List.filter_append, List.filter_singleton, hall, cond_true, List.getLast?_concat]

theorem newest_concat (hb : b ∈ newest candidates)
    (hlt : ¬(compare b.version e.version).isLE = true) :
    newest (candidates ++ [e]) = newest candidates := by
  obtain ⟨hbefore, -⟩ := mem_newest_iff.mp hb
  have hlower : (compare e.version b.version).isLE = true :=
    Ordering.isLE_of_eq_lt (Std.OrientedCmp.lt_of_not_isLE hlt)
  have hlost : ((candidates ++ [e]).all fun other =>
      (compare other.version e.version).isLE) = false := by
    refine List.all_eq_false.mpr ⟨b, List.mem_append_left _ hbefore, hlt⟩
  rw [newest, List.filter_append, List.filter_singleton, hlost, cond_false, List.append_nil]
  refine List.filter_congr ?_
  intro c hc
  rw [List.all_append, Bool.eq_iff_iff, Bool.and_eq_true]
  refine ⟨And.left, fun hnewest => ⟨hnewest, ?_⟩⟩
  -- The late candidate is below `b`, which is below all of the newest.
  rw [List.all_cons, List.all_nil, Bool.and_true]
  exact Std.TransCmp.isLE_trans hlower (List.all_eq_true.mp hnewest b hbefore)

theorem choose?_singleton (policy : MergePolicy) (e : Entry) : policy.choose? [e] = some e := by
  cases policy with
  | versionThenRecency =>
      have hnewest : newest [e] = [e] := by simp [newest]
      rw [choose?, hnewest, List.getLast?_singleton]
  | firstWins => rfl
  | lastWins => rfl

theorem choose?_concat (h : policy.choose? candidates = some b) :
    policy.choose? (candidates ++ [e]) = some (policy.keep b e) := by
  cases policy with
  | versionThenRecency =>
      have hb := List.mem_of_getLast? h
      by_cases hle : (compare b.version e.version).isLE = true
      · rw [choose?, getLast?_newest_concat hb hle, keep, replaces, if_pos hle]
      · rw [choose?, newest_concat hb hle, keep, replaces, if_neg hle]
        exact h
  | firstWins =>
      rw [choose?] at h
      rw [choose?, List.head?_append, h]
      rfl
  | lastWins => rw [choose?, List.getLast?_concat]; rfl

/-- Deciding between two candidates at a time is choosing from all of them. -/
theorem survivor_eq_choose? (policy : MergePolicy) (candidates : List Entry) :
    policy.survivor none candidates = policy.choose? candidates := by
  induction candidates using List.reverseRecOn with
  | nil => cases policy <;> rfl
  | append_singleton before e ih =>
      rw [survivor_append]
      cases hbest : policy.survivor none before with
      | none =>
          obtain ⟨-, rfl⟩ := survivor_eq_none_iff.mp hbest
          exact (choose?_singleton policy e).symm
      | some b =>
          rw [hbest] at ih
          rw [choose?_concat ih.symm]
          rfl

end MergePolicy

namespace Merge

/-- What a merge has to keep of the candidates: one entry for each folded name, in increasing order of
the folded names, and for each name what the policy chooses from the candidates of that name. -/
structure Keeps (policy : MergePolicy) (candidates : List Entry) (merge : Merge) : Prop where
  increasing : merge.entries.Pairwise fun a b => a.key < b.key
  names : ∀ key, key ∈ merge.entries.map Entry.key ↔ key ∈ candidates.map Entry.key
  kept : ∀ e ∈ merge.entries, policy.choose? (candidates.filter fun c => c.key == e.key) = some e

/-- A merge keeps the right candidate of each name, and of no name more than one. -/
theorem keeps_ofCandidates (policy : MergePolicy) (candidates : List Entry) :
    Keeps policy candidates (ofCandidates policy candidates) where
  increasing := pairwise_key_lt_entries policy candidates
  names := mem_keys_entries_iff policy candidates
  kept e he := by
    rw [← MergePolicy.survivor_eq_choose?]
    exact mem_entries_iff.mp he

end Merge

end NamelistCatalog
