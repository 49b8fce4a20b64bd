import NamelistCatalog.Text.Case

namespace NamelistCatalog.Name

/-- A character that may follow the first one of an identifier. -/
def isNameChar (c : Char) : Bool := c.isAlphanum || c == '_'

/-- A letter, then letters, digits and underscores, all of them ASCII. -/
def isIdentifier : List Char → Bool
  | [] => false
  | c :: rest => c.isAlpha && rest.all isNameChar

def isValid (name : String) : Bool := isIdentifier name.toList

/-- The form of a name that decides identity and matching. -/
def fold (name : String) : String := String.ofList (Text.lower name.toList)

theorem toNat_of_isAlpha {c : Char} (h : c.isAlpha = true) : 65 ≤ c.toNat ∧ c.toNat ≤ 122 := by
  have hcase : c.isUpper = true ∨ c.isLower = true := Bool.or_eq_true_iff.mp h
  rcases hcase with hupper | hlower
  · have hrange : 65 ≤ c.toNat ∧ c.toNat ≤ 90 := by
      obtain ⟨hlow, hhigh⟩ : 'A'.val ≤ c.val ∧ c.val ≤ 'Z'.val := of_decide_eq_true hupper
      exact ⟨UInt32.le_iff_toNat_le.mp hlow, UInt32.le_iff_toNat_le.mp hhigh⟩
    omega
  · have hrange : 97 ≤ c.toNat ∧ c.toNat ≤ 122 := by
      obtain ⟨hlow, hhigh⟩ := Bool.and_eq_true_iff.mp hlower
      exact ⟨UInt32.le_iff_toNat_le.mp (of_decide_eq_true hlow),
        UInt32.le_iff_toNat_le.mp (of_decide_eq_true hhigh)⟩
    omega

@[simp] theorem toList_fold (name : String) : (fold name).toList = Text.lower name.toList := by
  simp [fold]

end NamelistCatalog.Name
