import NamelistCatalog.Version

namespace NamelistCatalog.SourceVersion

namespace Chunk

/-- Numbers come first. -/
def kind : Chunk → Nat
  | .number _ => 0
  | .text _ => 1

/-- The number of digits, which decides between numbers alone. -/
def width : Chunk → Nat
  | .number digits => digits.length
  | .text _ => 0

def chars : Chunk → List Char
  | .number digits => digits
  | .text chars => chars

theorem compare_eq_compareLex :
    Chunk.compare = compareLex (compareOn kind) (compareLex (compareOn width) (compareOn chars)) := by
  funext a b
  cases a with
  | number a =>
      cases b with
      | number b => simp [Chunk.compare, compareLex, compareOn, kind, width, chars]
      | text b => rfl
  | text a =>
      cases b with
      | number b => rfl
      | text b => simp [Chunk.compare, compareLex, compareOn, kind, width, chars]

instance : Std.TransOrd Chunk := by
  change Std.TransCmp Chunk.compare
  rw [compare_eq_compareLex]
  infer_instance

end Chunk

theorem text_inj {v w : SourceVersion} : v.text = w.text ↔ v = w := by
  constructor
  · intro h
    cases v
    cases w
    exact congrArg SourceVersion.mk h
  · intro h
    rw [h]

theorem compare_eq_compareLex :
    SourceVersion.compare =
      compareLex (compareOn fun v : SourceVersion => chunks v.text.toList)
        (compareOn fun v : SourceVersion => v.text.toList) := rfl

instance : Std.TransOrd SourceVersion := by
  change Std.TransCmp SourceVersion.compare
  rw [compare_eq_compareLex]
  infer_instance

instance : Std.LawfulEqOrd SourceVersion where
  eq_of_compare {a b} h := by
    change SourceVersion.compare a b = .eq at h
    rw [compare_eq_compareLex, compareLex_eq_eq] at h
    exact text_inj.mp (String.toList_inj.mp (Std.LawfulEqOrd.eq_of_compare h.2))

theorem eq_of_isLE {a b : SourceVersion} (hab : (Ord.compare a b).isLE = true)
    (hba : (Ord.compare b a).isLE = true) : a = b :=
  Std.LawfulEqOrd.eq_of_compare (Std.OrientedCmp.isLE_antisymm hab hba)

/-- Release labels are linearly ordered, and a label compares as equal to itself alone. -/
theorem compare_linear (a b c : SourceVersion) :
    (Ord.compare a b = .eq ↔ a.text = b.text) ∧
      Ord.compare b a = (Ord.compare a b).swap ∧
      ((Ord.compare a b).isLE = true → (Ord.compare b c).isLE = true →
        (Ord.compare a c).isLE = true) := by
  refine ⟨?_, Std.OrientedOrd.eq_swap, Std.TransOrd.isLE_trans⟩
  rw [text_inj]
  exact Std.LawfulEqOrd.compare_eq_iff_eq

theorem compare_linear_leadingZeros :
    (Ord.compare (⟨"v01"⟩ : SourceVersion) ⟨"v1"⟩).isLE = true ∧
      (Ord.compare (⟨"v1"⟩ : SourceVersion) ⟨"v010"⟩).isLE = true ∧
      (Ord.compare (⟨"v01"⟩ : SourceVersion) ⟨"v010"⟩).isLE = true := by
  have hzeros : (Ord.compare (⟨"v01"⟩ : SourceVersion) ⟨"v1"⟩).isLE = true := by decide +kernel
  have hnumbers : (Ord.compare (⟨"v1"⟩ : SourceVersion) ⟨"v010"⟩).isLE = true := by decide +kernel
  exact ⟨hzeros, hnumbers, (compare_linear ⟨"v01"⟩ ⟨"v1"⟩ ⟨"v010"⟩).2.2 hzeros hnumbers⟩

theorem max_eq (a b : SourceVersion) : max a b = a ∨ max a b = b := by
  unfold max
  split
  · exact .inr rfl
  · exact .inl rfl

theorem isLE_max (a b : SourceVersion) :
    (Ord.compare a (max a b)).isLE = true ∧ (Ord.compare b (max a b)).isLE = true := by
  unfold max
  split
  · rename_i hle
    exact ⟨hle, Std.ReflCmp.isLE_rfl⟩
  · rename_i hle
    have hlt : Ord.compare b a = .lt := Std.OrientedCmp.lt_of_not_isLE hle
    exact ⟨Std.ReflCmp.isLE_rfl, Ordering.isLE_of_eq_lt hlt⟩

theorem foldl_max_mem (v : SourceVersion) (rest : List SourceVersion) :
    rest.foldl max v ∈ v :: rest := by
  induction rest generalizing v with
  | nil => exact List.mem_cons_self
  | cons w rest ih =>
      rw [List.foldl_cons]
      rcases List.mem_cons.mp (ih (max v w)) with h | h
      · rw [h]
        rcases max_eq v w with hmax | hmax
        · rw [hmax]
          exact List.mem_cons_self
        · rw [hmax]
          exact List.mem_cons_of_mem _ List.mem_cons_self
      · exact List.mem_cons_of_mem _ (List.mem_cons_of_mem _ h)

theorem isLE_foldl_max (v : SourceVersion) (rest : List SourceVersion) :
    ∀ w ∈ v :: rest, (Ord.compare w (rest.foldl max v)).isLE = true := by
  induction rest generalizing v with
  | nil =>
      intro w hw
      rw [List.mem_singleton.mp hw]
      exact Std.ReflCmp.isLE_rfl
  | cons u rest ih =>
      obtain ⟨hmax, hrest⟩ := List.forall_mem_cons.mp (ih (max v u))
      obtain ⟨hv, hu⟩ := isLE_max v u
      exact List.forall_mem_cons.mpr ⟨Std.TransCmp.isLE_trans hv hmax,
        List.forall_mem_cons.mpr ⟨Std.TransCmp.isLE_trans hu hmax, hrest⟩⟩

theorem maximum_mem {versions : List SourceVersion} (h : versions ≠ []) :
    maximum versions ∈ versions := by
  cases versions with
  | nil => exact absurd rfl h
  | cons v rest => exact foldl_max_mem v rest

theorem isLE_maximum {versions : List SourceVersion} {v : SourceVersion} (h : v ∈ versions) :
    (Ord.compare v (maximum versions)).isLE = true := by
  cases versions with
  | nil => cases h
  | cons w rest => exact isLE_foldl_max w rest v h

end NamelistCatalog.SourceVersion
