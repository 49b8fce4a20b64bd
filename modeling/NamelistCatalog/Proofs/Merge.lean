import NamelistCatalog.Catalog
import NamelistCatalog.Merge
import NamelistCatalog.Proofs.Association
import NamelistCatalog.Proofs.Version

namespace NamelistCatalog

namespace MergePolicy

/-- Which of two candidates of one name is kept. -/
def keep (policy : MergePolicy) (incumbent challenger : Entry) : Entry :=
  if policy.replaces incumbent challenger then challenger else incumbent

/-- What is left of candidates of one name, after `best` was left of those before them. -/
def survivor (policy : MergePolicy) : Option Entry → List Entry → Option Entry
  | best, [] => best
  | none, e :: rest => policy.survivor (some e) rest
  | some best, e :: rest => policy.survivor (some (policy.keep best e)) rest

variable {policy : MergePolicy} {best : Option Entry} {candidates : List Entry} {e : Entry}

theorem keep_eq (policy : MergePolicy) (a b : Entry) : policy.keep a b = a ∨ policy.keep a b = b := by
  unfold keep
  split
  · exact .inr rfl
  · exact .inl rfl

theorem mem_of_survivor (h : policy.survivor best candidates = some e) :
    best = some e ∨ e ∈ candidates := by
  induction candidates generalizing best with
  | nil => exact .inl h
  | cons candidate rest ih =>
      cases best with
      | none =>
          rcases ih h with hbest | hmem
          · obtain rfl := Option.some.inj hbest
            exact .inr List.mem_cons_self
          · exact .inr (List.mem_cons_of_mem _ hmem)
      | some incumbent =>
          rcases ih h with hbest | hmem
          · obtain rfl := Option.some.inj hbest
            rcases policy.keep_eq incumbent candidate with hkeep | hkeep
            · exact .inl (congrArg some hkeep.symm)
            · rw [hkeep]
              exact .inr List.mem_cons_self
          · exact .inr (List.mem_cons_of_mem _ hmem)

theorem survivor_eq_none_iff :
    policy.survivor best candidates = none ↔ best = none ∧ candidates = [] := by
  induction candidates generalizing best with
  | nil => simp [survivor]
  | cons candidate rest ih => cases best <;> simp [survivor, ih]

theorem survivor_append (best : Option Entry) (earlier later : List Entry) :
    policy.survivor best (earlier ++ later) = policy.survivor (policy.survivor best earlier) later := by
  induction earlier generalizing best with
  | nil => rfl
  | cons e rest ih => cases best <;> exact ih _

theorem isLE_keep (a b : Entry) :
    (compare a.version (versionThenRecency.keep a b).version).isLE = true ∧
      (compare b.version (versionThenRecency.keep a b).version).isLE = true := by
  unfold keep
  split
  · rename_i hle
    exact ⟨hle, Std.ReflCmp.isLE_rfl⟩
  · rename_i hle
    have hlt := Std.OrientedCmp.lt_of_not_isLE hle
    exact ⟨Std.ReflCmp.isLE_rfl, by rw [hlt]; rfl⟩

theorem isLE_survivor (h : versionThenRecency.survivor best candidates = some e) :
    (∀ b, best = some b → (compare b.version e.version).isLE = true) ∧
      ∀ x ∈ candidates, (compare x.version e.version).isLE = true := by
  induction candidates generalizing best with
  | nil =>
      refine ⟨?_, by simp⟩
      rintro b rfl
      obtain rfl := Option.some.inj h
      exact Std.ReflCmp.isLE_rfl
  | cons candidate rest ih =>
      cases best with
      | none =>
          obtain ⟨hbest, hrest⟩ := ih h
          exact ⟨by simp, List.forall_mem_cons.mpr ⟨hbest candidate rfl, hrest⟩⟩
      | some incumbent =>
          obtain ⟨hbest, hrest⟩ := ih h
          have hkept := hbest _ rfl
          obtain ⟨hincumbent, hcandidate⟩ := isLE_keep incumbent candidate
          refine ⟨?_, List.forall_mem_cons.mpr ⟨Std.TransCmp.isLE_trans hcandidate hkept, hrest⟩⟩
          rintro b hb
          obtain rfl := Option.some.inj hb
          exact Std.TransCmp.isLE_trans hincumbent hkept

theorem survivor_perm {candidates' : List Entry} (hperm : candidates.Perm candidates')
    (hversions : (candidates.map Entry.version).Nodup) :
    versionThenRecency.survivor none candidates = versionThenRecency.survivor none candidates' := by
  cases h : versionThenRecency.survivor none candidates with
  | none =>
      obtain ⟨-, rfl⟩ := survivor_eq_none_iff.mp h
      rw [← hperm.nil_eq, survivor]
  | some a =>
      cases h' : versionThenRecency.survivor none candidates' with
      | none =>
          obtain ⟨-, rfl⟩ := survivor_eq_none_iff.mp h'
          rw [hperm.eq_nil, survivor] at h
          cases h
      | some b =>
          have ha : a ∈ candidates := (mem_of_survivor h).resolve_left (by simp)
          have hb : b ∈ candidates' := (mem_of_survivor h').resolve_left (by simp)
          -- Each of the two is among the candidates that the other one has won against.
          have hab := (isLE_survivor h').2 a (hperm.mem_iff.mp ha)
          have hba := (isLE_survivor h).2 b (hperm.mem_iff.mpr hb)
          have hversion := SourceVersion.eq_of_isLE hab hba
          rw [List.inj_on_of_nodup_map hversions ha (hperm.mem_iff.mpr hb) hversion]

end MergePolicy

namespace Merge

/-- Every survivor stands under its own folded name, and no name is taken twice. -/
structure Survivors.Keyed (survivors : Survivors) : Prop where
  keys : ∀ p ∈ survivors, p.1 = p.2.key
  nodup : (survivors.map Prod.fst).Nodup

def Survivors.enter (survivors : Survivors) (policy : MergePolicy) (candidate : Entry) : Survivors :=
  match survivors.lookup candidate.key with
  | none => (candidate.key, candidate) :: survivors
  | some incumbent =>
      if policy.replaces incumbent candidate then survivors.replace candidate.key candidate
      else survivors

variable {policy : MergePolicy} {survivors : Survivors} {candidates : List Entry}

theorem run_cons (candidate : Entry) (rest : List Entry) :
    (run policy survivors (candidate :: rest)).1 =
      (run policy (survivors.enter policy candidate) rest).1 := by
  rw [run, Survivors.enter]
  cases survivors.lookup candidate.key with
  | none => rfl
  | some incumbent => cases hreplaces : policy.replaces incumbent candidate <;> simp [hreplaces]

theorem Survivors.Keyed.enter (h : survivors.Keyed) (candidate : Entry) :
    (survivors.enter policy candidate).Keyed := by
  unfold Survivors.enter
  split
  · rename_i hfresh
    rw [Association.lookup_eq_none_iff_not_mem] at hfresh
    exact ⟨List.forall_mem_cons.mpr ⟨rfl, h.keys⟩, List.nodup_cons.mpr ⟨hfresh, h.nodup⟩⟩
  · split
    · refine ⟨?_, ?_⟩
      · intro p hp
        obtain ⟨old, hold, rfl⟩ := List.mem_map.mp hp
        split
        · rfl
        · exact h.keys old hold
      · rw [Survivors.replace, Association.map_fst_replace]
        exact h.nodup
    · exact h

theorem Survivors.lookup_replace (survivors : Survivors) (key other : String) (e : Entry) :
    (survivors.replace key e).lookup other =
      if other = key then (survivors.lookup key).map fun _ => e else survivors.lookup other :=
  Association.lookup_replace

theorem lookup_enter (candidate : Entry) (key : String) :
    (survivors.enter policy candidate).lookup key =
      if candidate.key = key then policy.survivor (survivors.lookup key) [candidate]
      else survivors.lookup key := by
  unfold Survivors.enter
  by_cases hkey : candidate.key = key
  · rw [if_pos hkey, hkey]
    cases hlookup : survivors.lookup key with
    | none => simp [MergePolicy.survivor]
    | some incumbent =>
        by_cases hreplaces : policy.replaces incumbent candidate = true
        · simp [hreplaces, Survivors.lookup_replace, hlookup, MergePolicy.survivor, MergePolicy.keep]
        · simp [hreplaces, hlookup, MergePolicy.survivor, MergePolicy.keep]
  · rw [if_neg hkey]
    have hother : (key == candidate.key) = false := beq_eq_false_iff_ne.mpr (Ne.symm hkey)
    cases survivors.lookup candidate.key with
    | none => simp [List.lookup_cons, hother]
    | some incumbent =>
        by_cases hreplaces : policy.replaces incumbent candidate = true
        · simp [hreplaces, Survivors.lookup_replace, Ne.symm hkey]
        · simp [hreplaces]

theorem Survivors.Keyed.run (h : survivors.Keyed) (candidates : List Entry) :
    (Merge.run policy survivors candidates).1.Keyed := by
  induction candidates generalizing survivors with
  | nil => exact h
  | cons candidate rest ih =>
      rw [run_cons]
      exact ih (h.enter candidate)

/-- For each name, a run leaves what the candidates of that name leave by themselves. -/
theorem lookup_run (policy : MergePolicy) (survivors : Survivors) (candidates : List Entry)
    (key : String) :
    (run policy survivors candidates).1.lookup key =
      policy.survivor (survivors.lookup key) (candidates.filter fun e => e.key == key) := by
  induction candidates generalizing survivors with
  | nil => rfl
  | cons candidate rest ih =>
      rw [run_cons, ih, lookup_enter]
      by_cases hkey : candidate.key = key
      · rw [if_pos hkey, List.filter_cons_of_pos (by simp [hkey]),
          ← MergePolicy.survivor_append, List.singleton_append]
      · rw [if_neg hkey, List.filter_cons_of_neg (by simp [hkey])]

/-- Each candidate is left or has taken part in one decision that it or another one lost. -/
theorem length_run (policy : MergePolicy) (survivors : Survivors) (candidates : List Entry) :
    (run policy survivors candidates).1.length + (run policy survivors candidates).2.length =
      survivors.length + candidates.length := by
  induction candidates generalizing survivors with
  | nil => rfl
  | cons candidate rest ih =>
      rw [run]
      split
      · rw [ih, List.length_cons, List.length_cons]
        omega
      · split
        · have hreplaced := ih (survivors.replace candidate.key candidate)
          rw [Survivors.replace, List.length_map] at hreplaced
          simp only [List.length_cons, Survivors.replace]
          omega
        · have hkept := ih survivors
          simp only [List.length_cons]
          omega

theorem Survivors.keyed_nil : Survivors.Keyed [] := ⟨by simp, by simp⟩

theorem keyed_run (policy : MergePolicy) (candidates : List Entry) :
    (run policy [] candidates).1.Keyed :=
  Survivors.keyed_nil.run candidates

theorem entries_perm_run (policy : MergePolicy) (candidates : List Entry) :
    (ofCandidates policy candidates).entries.Perm ((run policy [] candidates).1.map Prod.snd) :=
  Entry.sortByName_perm _

theorem mem_entries_iff {e : Entry} :
    e ∈ (ofCandidates policy candidates).entries ↔
      policy.survivor none (candidates.filter fun c => c.key == e.key) = some e := by
  -- Under distinct keys, to be among the survivors is to be found under one's own key.
  have hkeyed := keyed_run policy candidates
  have hlookup := lookup_run policy [] candidates e.key
  rw [List.lookup_nil] at hlookup
  rw [← hlookup, Association.lookup_eq_some_iff_mem hkeyed.nodup,
    (entries_perm_run policy candidates).mem_iff, List.mem_map]
  constructor
  · rintro ⟨p, hp, rfl⟩
    rw [← hkeyed.keys p hp]
    exact hp
  · intro hmem
    exact ⟨(e.key, e), hmem, rfl⟩

theorem mem_of_mem_entries {e : Entry} (h : e ∈ (ofCandidates policy candidates).entries) :
    e ∈ candidates := by
  rcases MergePolicy.mem_of_survivor (mem_entries_iff.mp h) with hnone | hmem
  · cases hnone
  · exact List.mem_of_mem_filter hmem

theorem nodup_keys_entries (policy : MergePolicy) (candidates : List Entry) :
    ((ofCandidates policy candidates).entries.map Entry.key).Nodup := by
  have hkeyed := keyed_run policy candidates
  rw [((entries_perm_run policy candidates).map Entry.key).nodup_iff, List.map_map]
  convert hkeyed.nodup using 1
  refine List.map_congr_left ?_
  intro p hp
  exact (hkeyed.keys p hp).symm

theorem mem_keys_entries_iff (policy : MergePolicy) (candidates : List Entry) (key : String) :
    key ∈ (ofCandidates policy candidates).entries.map Entry.key ↔ key ∈ candidates.map Entry.key := by
  constructor
  · intro h
    obtain ⟨e, he, rfl⟩ := List.mem_map.mp h
    exact List.mem_map_of_mem (mem_of_mem_entries he)
  · intro h
    obtain ⟨c, hc, rfl⟩ := List.mem_map.mp h
    have hrivals : c ∈ candidates.filter fun e => e.key == c.key :=
      List.mem_filter.mpr ⟨hc, by simp⟩
    cases hsurvivor : policy.survivor none (candidates.filter fun e => e.key == c.key) with
    | none =>
        rw [(MergePolicy.survivor_eq_none_iff.mp hsurvivor).2] at hrivals
        cases hrivals
    | some e =>
        have he := (MergePolicy.mem_of_survivor hsurvivor).resolve_left (by simp)
        have hkey : e.key = c.key := by simpa using (List.mem_filter.mp he).2
        rw [← hkey] at hsurvivor ⊢
        exact List.mem_map_of_mem (mem_entries_iff.mpr hsurvivor)

theorem entries_eq_nil_iff : (ofCandidates policy candidates).entries = [] ↔ candidates = [] := by
  have hkeys := mem_keys_entries_iff policy candidates
  rw [← List.map_eq_nil_iff (f := Entry.key), ← List.map_eq_nil_iff (f := Entry.key) (l := candidates)]
  simp only [List.eq_nil_iff_forall_not_mem, hkeys]

theorem length_entries_add_overrides (policy : MergePolicy) (candidates : List Entry) :
    (ofCandidates policy candidates).entries.length + (ofCandidates policy candidates).overrides.length =
      candidates.length := by
  have hrun := length_run policy [] candidates
  rw [List.length_nil, Nat.zero_add] at hrun
  rw [(entries_perm_run policy candidates).length_eq, List.length_map]
  exact hrun

theorem pairwise_key_ne_entries (policy : MergePolicy) (candidates : List Entry) :
    (ofCandidates policy candidates).entries.Pairwise fun a b => a.key ≠ b.key :=
  List.pairwise_map.mp (nodup_keys_entries policy candidates)

theorem pairwise_key_lt_entries (policy : MergePolicy) (candidates : List Entry) :
    (ofCandidates policy candidates).entries.Pairwise fun a b => a.key < b.key :=
  Entry.pairwise_key_lt_sortByName (pairwise_key_ne_entries policy candidates)

theorem checkAll_entries (h : ∀ e ∈ candidates, e.check = none) :
    Entry.checkAll (ofCandidates policy candidates).entries = none :=
  Entry.checkAll_eq_none_iff.mpr
    ⟨fun e he => h e (mem_of_mem_entries he), pairwise_key_ne_entries policy candidates⟩

theorem mem_entries_perm {candidates' : List Entry} (hperm : candidates.Perm candidates')
    (hdistinct : (candidates.map fun e => (e.key, e.version)).Nodup) {e : Entry} :
    e ∈ (ofCandidates .versionThenRecency candidates).entries ↔
      e ∈ (ofCandidates .versionThenRecency candidates').entries := by
  have hrivals : ((candidates.filter fun c => c.key == e.key).map Entry.version).Nodup := by
    have hsublist : (candidates.filter fun c => c.key == e.key).Sublist candidates :=
      List.filter_sublist
    have hpairs := hdistinct.sublist (hsublist.map fun c => (c.key, c.version))
    have hkey : ((candidates.filter fun c => c.key == e.key).map fun c => (c.key, c.version)) =
        ((candidates.filter fun c => c.key == e.key).map Entry.version).map fun v => (e.key, v) := by
      rw [List.map_map]
      refine List.map_congr_left ?_
      intro c hc
      have hc := (List.mem_filter.mp hc).2
      rw [beq_iff_eq] at hc
      rw [Function.comp_apply, hc]
    rw [hkey] at hpairs
    exact hpairs.of_map
  rw [mem_entries_iff, mem_entries_iff, MergePolicy.survivor_perm (hperm.filter _) hrivals]

theorem entries_eq_of_mem_iff {candidates' : List Entry}
    (h : ∀ e, e ∈ (ofCandidates policy candidates).entries ↔
      e ∈ (ofCandidates policy candidates').entries) :
    (ofCandidates policy candidates).entries = (ofCandidates policy candidates').entries := by
  have hkeys := nodup_keys_entries policy candidates
  have hkeys' := nodup_keys_entries policy candidates'
  have hsame : (ofCandidates policy candidates).entries.Perm
      (ofCandidates policy candidates').entries :=
    (List.perm_ext_iff_of_nodup hkeys.of_map hkeys'.of_map).mpr h
  exact Entry.eq_of_perm_of_pairwise_key_lt hsame (pairwise_key_lt_entries _ candidates)
    (pairwise_key_lt_entries _ candidates')

/-- When versions decide and no two candidates of a name have the same version, the order in which
candidates come does not change what is left of them. -/
theorem entries_perm {candidates' : List Entry} (hperm : candidates.Perm candidates')
    (hdistinct : (candidates.map fun e => (e.key, e.version)).Nodup) :
    (ofCandidates .versionThenRecency candidates).entries =
      (ofCandidates .versionThenRecency candidates').entries :=
  entries_eq_of_mem_iff fun _ => mem_entries_perm hperm hdistinct

end Merge

end NamelistCatalog
