import Mathlib.Algebra.Group.Nat.Defs
import Mathlib.Data.List.Induction
import NamelistCatalog.Text.Decimal

namespace NamelistCatalog.Text

theorem toList_toString (n : Nat) : (toString n).toList = Nat.toDigits 10 n := by
  rw [Nat.toString_eq_repr, Nat.toList_repr]

theorem isDigit_of_mem_toString {n : Nat} {c : Char} (h : c ∈ (toString n).toList) :
    c.isDigit = true := by
  rw [toList_toString] at h
  exact Nat.isDigit_of_mem_toDigits (by decide) (by decide) h

theorem toString_ne_empty (n : Nat) : toString n ≠ "" := by
  rw [Nat.toString_eq_repr]
  exact Nat.repr_ne_empty

theorem decimalValue_toString (n : Nat) : decimalValue (toString n).toList = n := by
  rw [toList_toString]
  exact Nat.ofDigitChars_ten_toDigits

theorem toString_injective {m n : Nat} (h : toString m = toString n) : m = n := by
  rw [← decimalValue_toString m, h, decimalValue_toString]

theorem isDigits_toString (n : Nat) :
    (!(toString n).toList.isEmpty && (toString n).toList.all Char.isDigit) = true := by
  have hempty : (toString n).toList.isEmpty = false := by
    rw [toList_toString, List.isEmpty_eq_false_iff]
    exact Nat.toDigits_ne_nil
  rw [hempty, List.all_eq_true.mpr fun _ => isDigit_of_mem_toString]
  rfl

theorem count?_toString (n : Nat) :
    count? (toString n).toList = if n ≤ maxCount then some n else none := by
  have hempty : (toString n).toList.isEmpty = false := by
    rw [toList_toString, List.isEmpty_eq_false_iff]
    exact Nat.toDigits_ne_nil
  have hdigits : (toString n).toList.all Char.isDigit = true :=
    List.all_eq_true.mpr fun _ => isDigit_of_mem_toString
  rw [count?, hempty, hdigits, decimalValue_toString]
  rfl

theorem signedCount?_eq_count? {s : List Char} (h : s.head? ≠ some '+') :
    signedCount? s = count? s := by
  unfold signedCount?
  split
  · simp at h
  · rfl

theorem signedCount?_toString (n : Nat) :
    signedCount? (toString n).toList = if n ≤ maxCount then some n else none := by
  rw [signedCount?_eq_count?, count?_toString]
  intro h
  have hdigit := isDigit_of_mem_toString (List.mem_of_mem_head? h)
  exact absurd hdigit (by decide)

theorem decimalValue_cons (c : Char) (s : List Char) :
    decimalValue (c :: s) = (c.toNat - 48) * 10 ^ s.length + decimalValue s := by
  induction s using List.reverseRecOn with
  | nil => simp [decimalValue]
  | append_singleton s d ih =>
      rw [← List.cons_append, decimalValue_append_digit, ih, decimalValue_append_digit,
        List.length_append, List.length_singleton, Nat.pow_succ, ← Nat.mul_assoc]
      omega

theorem toNat_of_isDigit {c : Char} (h : c.isDigit = true) : 48 ≤ c.toNat ∧ c.toNat ≤ 57 :=
  Char.isDigit_iff_toNat.mp h

theorem decimalValue_lt {s : List Char} (h : ∀ c ∈ s, c.isDigit = true) :
    decimalValue s < 10 ^ s.length := by
  induction s with
  | nil => decide
  | cons c rest ih =>
      obtain ⟨hc, hrest⟩ := List.forall_mem_cons.mp h
      have hdigit : c.toNat - 48 + 1 ≤ 10 := by
        have := toNat_of_isDigit hc
        omega
      calc
        decimalValue (c :: rest) = (c.toNat - 48) * 10 ^ rest.length + decimalValue rest :=
          decimalValue_cons c rest
        _ < (c.toNat - 48) * 10 ^ rest.length + 10 ^ rest.length :=
          Nat.add_lt_add_left (ih hrest) _
        _ = (c.toNat - 48 + 1) * 10 ^ rest.length := (Nat.succ_mul _ _).symm
        _ ≤ 10 * 10 ^ rest.length := Nat.mul_le_mul_right _ hdigit
        _ = 10 ^ (c :: rest).length := (Nat.pow_succ').symm

theorem decimalValue_dropZeros (s : List Char) :
    decimalValue (s.dropWhile (· == '0')) = decimalValue s := by
  induction s with
  | nil => rfl
  | cons c rest ih =>
      by_cases hc : c = '0'
      · subst hc
        rw [List.dropWhile_cons_of_pos (by decide), ih, decimalValue_cons]
        simp
      · rw [List.dropWhile_cons_of_neg (by simpa using hc)]

theorem decimalValue_lt_of_length_lt {s t : List Char} (hs : ∀ c ∈ s, c.isDigit = true)
    (ht : ∀ c ∈ t, c.isDigit = true) (hzero : t.head? ≠ some '0') (hlength : s.length < t.length) :
    decimalValue s < decimalValue t := by
  cases t with
  | nil => cases hlength
  | cons c rest =>
      have hdigit : 1 ≤ c.toNat - 48 := by
        have hrange := toNat_of_isDigit (ht c List.mem_cons_self)
        have hne : c.toNat ≠ 48 := fun h => hzero (congrArg some (Char.toNat_inj.mp h))
        omega
      calc
        decimalValue s < 10 ^ s.length := decimalValue_lt hs
        _ ≤ 10 ^ rest.length := Nat.pow_le_pow_right (by decide) (Nat.le_of_lt_succ hlength)
        _ = 1 * 10 ^ rest.length := (Nat.one_mul _).symm
        _ ≤ (c.toNat - 48) * 10 ^ rest.length := Nat.mul_le_mul_right _ hdigit
        _ ≤ decimalValue (c :: rest) := by
          rw [decimalValue_cons]
          exact Nat.le_add_right _ _

theorem compare_mul_add {base m n : Nat} (a b : Nat) (hm : m < base) (hn : n < base) :
    compare (a * base + m) (b * base + n) = (compare a b).then (compare m n) := by
  have hstep : ∀ x y, x < y → x * base + base ≤ y * base := by
    intro x y hxy
    rw [← Nat.succ_mul]
    exact Nat.mul_le_mul_right base hxy
  rcases Nat.lt_trichotomy a b with hab | rfl | hab
  · have hless := hstep a b hab
    rw [Nat.compare_eq_lt.mpr hab, Ordering.lt_then, Nat.compare_eq_lt]
    omega
  · rw [Nat.compare_eq_eq.mpr rfl, Ordering.eq_then]
    simp only [Nat.compare_eq_ite_lt, Nat.add_lt_add_iff_left]
  · have hless := hstep b a hab
    rw [Nat.compare_eq_gt.mpr hab, Ordering.gt_then, Nat.compare_eq_gt]
    omega

theorem compare_of_isDigit {c d : Char} (hc : c.isDigit = true) (hd : d.isDigit = true) :
    compare c d = compare (c.toNat - 48) (d.toNat - 48) := by
  have hless : c < d ↔ c.toNat - 48 < d.toNat - 48 := by
    rw [Char.lt_def, UInt32.lt_iff_toNat_lt]
    change c.toNat < d.toNat ↔ _
    have := toNat_of_isDigit hc
    have := toNat_of_isDigit hd
    omega
  have hsame : c = d ↔ c.toNat - 48 = d.toNat - 48 := by
    rw [← Char.toNat_inj]
    have := toNat_of_isDigit hc
    have := toNat_of_isDigit hd
    omega
  change compareOfLessAndEq c d = compareOfLessAndEq (c.toNat - 48) (d.toNat - 48)
  simp only [compareOfLessAndEq, hless, hsame]

theorem compare_of_length_eq {s t : List Char} (hs : ∀ c ∈ s, c.isDigit = true)
    (ht : ∀ c ∈ t, c.isDigit = true) (hlength : s.length = t.length) :
    compare s t = compare (decimalValue s) (decimalValue t) := by
  induction s generalizing t with
  | nil =>
      obtain rfl := List.length_eq_zero_iff.mp hlength.symm
      rfl
  | cons c s ih =>
      obtain ⟨d, t, rfl⟩ := List.exists_cons_of_length_eq_add_one hlength.symm
      obtain ⟨hc, hs⟩ := List.forall_mem_cons.mp hs
      obtain ⟨hd, ht⟩ := List.forall_mem_cons.mp ht
      have hrest : s.length = t.length := Nat.succ.inj hlength
      rw [List.compare_eq_compareLex, List.compareLex_cons_cons, ← List.compare_eq_compareLex,
        ih hs ht hrest, compare_of_isDigit hc hd, decimalValue_cons, decimalValue_cons, hrest]
      refine (compare_mul_add _ _ ?_ (decimalValue_lt ht)).symm
      rw [← hrest]
      exact decimalValue_lt hs

/-- Runs of digits without zeros in front compare by their lengths, and then digit by digit, as their
values do. -/
theorem compare_decimalValue {s t : List Char} (hs : ∀ c ∈ s, c.isDigit = true)
    (ht : ∀ c ∈ t, c.isDigit = true) (hs0 : s.head? ≠ some '0') (ht0 : t.head? ≠ some '0') :
    (compare s.length t.length).then (compare s t) = compare (decimalValue s) (decimalValue t) := by
  rcases Nat.lt_trichotomy s.length t.length with hlength | hlength | hlength
  · rw [Nat.compare_eq_lt.mpr hlength, Ordering.lt_then, eq_comm, Nat.compare_eq_lt]
    exact decimalValue_lt_of_length_lt hs ht ht0 hlength
  · rw [Nat.compare_eq_eq.mpr hlength, Ordering.eq_then]
    exact compare_of_length_eq hs ht hlength
  · rw [Nat.compare_eq_gt.mpr hlength, Ordering.gt_then, eq_comm, Nat.compare_eq_gt]
    exact decimalValue_lt_of_length_lt ht hs hs0 hlength

end NamelistCatalog.Text
