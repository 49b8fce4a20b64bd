import Mathlib.Data.List.Nodup

namespace NamelistCatalog.Association

variable {α : Type} {pairs : List (String × α)} {key other : String} {a : α}

theorem lookup_eq_none_iff_not_mem : pairs.lookup key = none ↔ key ∉ pairs.map Prod.fst := by
  rw [List.lookup_eq_none_iff]
  constructor
  · intro h hmem
    obtain ⟨p, hp, rfl⟩ := List.mem_map.mp hmem
    simpa using h p hp
  · intro h p hp
    rw [bne_iff_ne]
    rintro rfl
    exact h (List.mem_map_of_mem hp)

theorem isSome_lookup : (pairs.lookup key).isSome = (pairs.map Prod.fst).any (key == ·) := by
  induction pairs with
  | nil => rfl
  | cons p rest ih =>
      rw [List.lookup_cons, List.map_cons, List.any_cons, ← ih]
      cases key == p.1 <;> rfl

theorem mem_of_lookup (h : pairs.lookup key = some a) : (key, a) ∈ pairs := by
  obtain ⟨before, after, rfl, -⟩ := List.lookup_eq_some_iff.mp h
  simp

theorem lookup_eq_some_iff_mem (hkeys : (pairs.map Prod.fst).Nodup) :
    pairs.lookup key = some a ↔ (key, a) ∈ pairs := by
  refine ⟨mem_of_lookup, ?_⟩
  intro hmem
  cases hlookup : pairs.lookup key with
  | none => exact absurd (List.mem_map_of_mem hmem) (lookup_eq_none_iff_not_mem.mp hlookup)
  | some b =>
      have hsame := List.inj_on_of_nodup_map hkeys (mem_of_lookup hlookup) hmem rfl
      rw [(Prod.mk.inj hsame).2]

theorem map_fst_replace :
    (pairs.map fun p => if p.1 == key then (key, a) else p).map Prod.fst = pairs.map Prod.fst := by
  rw [List.map_map]
  refine List.map_congr_left ?_
  intro p _
  by_cases hp : p.1 = key
  · simp [hp]
  · simp [hp]

theorem lookup_replace :
    (pairs.map fun p => if p.1 == key then (key, a) else p).lookup other =
      if other = key then (pairs.lookup key).map fun _ => a else pairs.lookup other := by
  induction pairs with
  | nil => simp
  | cons p rest ih =>
      rw [List.map_cons, List.lookup_cons, List.lookup_cons, List.lookup_cons, ih]
      by_cases hother : other = key
      · by_cases hp : p.1 = key
        · simp [hother, hp]
        · have hkey : (key == p.1) = false := beq_eq_false_iff_ne.mpr (Ne.symm hp)
          simp [hother, hp, hkey]
      · by_cases hp : p.1 = key
        · have hkey : (other == key) = false := beq_eq_false_iff_ne.mpr hother
          simp [hother, hp, hkey]
        · simp [hother, hp]

section Filter

variable {κ β : Type} [BEq κ] [LawfulBEq κ] {entries : List (κ × β)} {changed k : κ}

theorem lookup_filter_ne (h : changed ≠ k) :
    (entries.filter fun p => p.1 != changed).lookup k = entries.lookup k := by
  induction entries with
  | nil => rfl
  | cons p rest ih =>
      by_cases hp : p.1 = changed
      · have hkey : (k == p.1) = false := by
          rw [beq_eq_false_iff_ne, hp]
          exact h.symm
        rw [List.filter_cons_of_neg (by simp [hp]), ih, List.lookup_cons, hkey]
      · rw [List.filter_cons_of_pos (by simp [hp]), List.lookup_cons, List.lookup_cons, ih]

theorem lookup_filter_self : (entries.filter fun p => p.1 != k).lookup k = none := by
  rw [List.lookup_eq_none_iff]
  intro p hp
  have hne := (List.mem_filter.mp hp).2
  rw [bne_iff_ne] at hne ⊢
  exact hne.symm

end Filter

end NamelistCatalog.Association
