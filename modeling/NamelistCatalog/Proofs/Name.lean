import NamelistCatalog.Name
import NamelistCatalog.Proofs.Text.Trim

namespace NamelistCatalog.Name

theorem toNat_of_isNameChar {c : Char} (h : isNameChar c = true) :
    48 ≤ c.toNat ∧ c.toNat ≤ 122 := by
  rw [isNameChar, Bool.or_eq_true, Char.isAlphanum, Bool.or_eq_true] at h
  rcases h with (h | h) | h
  · have := toNat_of_isAlpha h
    omega
  · simp only [Char.isDigit, Bool.and_eq_true, decide_eq_true_eq, ge_iff_le,
      UInt32.le_iff_toNat_le] at h
    have hlow : 48 ≤ c.toNat := h.1
    have hhigh : c.toNat ≤ 57 := h.2
    omega
  · rw [beq_iff_eq] at h
    subst h
    decide

theorem isBlank_of_isNameChar {c : Char} (h : isNameChar c = true) : Text.isBlank c = false := by
  obtain ⟨hlow, hhigh⟩ := toNat_of_isNameChar h
  simp only [Text.isBlank, Bool.or_eq_false_iff, Bool.and_eq_false_iff, decide_eq_false_iff_not,
    beq_eq_false_iff_ne]
  omega

theorem isNameChar_of_isAlpha {c : Char} (h : c.isAlpha = true) : isNameChar c = true := by
  simp [isNameChar, Char.isAlphanum, h]

theorem isNameChar_of_isDigit {c : Char} (h : c.isDigit = true) : isNameChar c = true := by
  simp [isNameChar, Char.isAlphanum, h]

theorem ne_of_isNameChar {c d : Char} (hc : isNameChar c = true) (hd : isNameChar d = false) :
    c ≠ d := by
  rintro rfl
  rw [hc] at hd
  cases hd

theorem isNameChar_of_isValid {name : String} (h : isValid name = true) {c : Char}
    (hc : c ∈ name.toList) : isNameChar c = true := by
  rw [isValid] at h
  cases hname : name.toList with
  | nil => simp [hname] at hc
  | cons d rest =>
      rw [hname, isIdentifier, Bool.and_eq_true] at h
      rw [hname, List.mem_cons] at hc
      rcases hc with rfl | hc
      · simp [isNameChar, Char.isAlphanum, h.1]
      · exact List.all_eq_true.mp h.2 c hc

theorem toList_ne_nil_of_isValid {name : String} (h : isValid name = true) : name.toList ≠ [] := by
  intro hname
  rw [isValid, hname] at h
  cases h

theorem isTrimmed_of_isValid {name : String} (h : isValid name = true) :
    Text.IsTrimmed name.toList :=
  ⟨fun _ hc => isBlank_of_isNameChar (isNameChar_of_isValid h (List.mem_of_mem_head? hc)),
    fun _ hc => isBlank_of_isNameChar (isNameChar_of_isValid h (List.mem_of_getLast? hc))⟩

end NamelistCatalog.Name
