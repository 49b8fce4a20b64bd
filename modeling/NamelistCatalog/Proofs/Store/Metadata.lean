import NamelistCatalog.Proofs.Association
import NamelistCatalog.Store

namespace NamelistCatalog.Store

variable {metadata pairs : List (String × String)} {changed key value : String}

theorem lookup_putMetadata_ne (h : changed ≠ key) :
    (putMetadata changed value metadata).lookup key = metadata.lookup key := by
  have hkey : (key == changed) = false := beq_eq_false_iff_ne.mpr h.symm
  rw [putMetadata, List.lookup_append, Association.lookup_filter_ne h, List.lookup_cons, hkey]
  simp

theorem lookup_putMetadata_self : (putMetadata key value metadata).lookup key = some value := by
  rw [putMetadata, List.lookup_append, Association.lookup_filter_self]
  simp

theorem lookup_putAll (hkeys : (pairs.map Prod.fst).Nodup) :
    (putAll pairs metadata).lookup key = (pairs.lookup key).or (metadata.lookup key) := by
  induction pairs generalizing metadata with
  | nil => rfl
  | cons p rest ih =>
      obtain ⟨hfresh, hrest⟩ := List.nodup_cons.mp hkeys
      change (putAll rest (putMetadata p.1 p.2 metadata)).lookup key = _
      rw [ih hrest, List.lookup_cons]
      by_cases hkey : key = p.1
      · rw [hkey, Association.lookup_eq_none_iff_not_mem.mpr hfresh, lookup_putMetadata_self]
        simp
      · have hother : (key == p.1) = false := beq_eq_false_iff_ne.mpr hkey
        rw [lookup_putMetadata_ne (Ne.symm hkey), hother]

end NamelistCatalog.Store
