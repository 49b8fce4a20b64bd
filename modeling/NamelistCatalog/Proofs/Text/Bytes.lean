import Mathlib.Algebra.Group.Nat.Defs
import Mathlib.Data.List.Flatten
import NamelistCatalog.Text.Utf8

namespace NamelistCatalog.Text.Utf8

theorem encode_eq_flatMap (s : String) : encode s = s.toList.flatMap String.utf8EncodeChar := by
  have hbytes : s.toByteArray = (s.toList.flatMap String.utf8EncodeChar).toByteArray := by
    have hlist : (String.ofList s.toList).toByteArray = s.toList.utf8Encode := rfl
    rw [← List.utf8Encode, ← hlist, String.ofList_toList]
  rw [encode, hbytes, List.toList_data_toByteArray]

theorem encode_injective {s t : String} (h : encode s = encode t) : s = t := by
  apply String.toByteArray_inj.mp
  apply ByteArray.ext
  exact Array.toList_inj.mp h

theorem toNat_eq_of_mem_utf8EncodeChar {c : Char} {b : UInt8} (hb : b.toNat < 128)
    (h : b ∈ String.utf8EncodeChar c) : c.toNat = b.toNat := by
  have hc : c.val.toNat = c.toNat := rfl
  unfold String.utf8EncodeChar at h
  simp only [hc] at h
  split at h
  · rename_i hone
    rw [List.mem_singleton] at h
    rw [h, UInt8.toNat_ofNat']
    omega
  · split at h
    · simp only [List.mem_cons, List.not_mem_nil, or_false] at h
      rcases h with rfl | rfl <;> simp only [UInt8.toNat_ofNat'] at hb <;> omega
    · split at h
      · simp only [List.mem_cons, List.not_mem_nil, or_false] at h
        rcases h with rfl | rfl | rfl <;> simp only [UInt8.toNat_ofNat'] at hb <;> omega
      · simp only [List.mem_cons, List.not_mem_nil, or_false] at h
        rcases h with rfl | rfl | rfl | rfl <;> simp only [UInt8.toNat_ofNat'] at hb <;> omega

theorem exists_of_mem_encode {s : String} {b : UInt8} (hb : b.toNat < 128) (h : b ∈ encode s) :
    ∃ c ∈ s.toList, c.toNat = b.toNat := by
  rw [encode_eq_flatMap, List.mem_flatMap] at h
  obtain ⟨c, hc, hmem⟩ := h
  exact ⟨c, hc, toNat_eq_of_mem_utf8EncodeChar hb hmem⟩

theorem encode_sublist {s t : String} (h : s.toList.Sublist t.toList) :
    (encode s).Sublist (encode t) := by
  rw [encode_eq_flatMap, encode_eq_flatMap]
  exact h.flatMap String.utf8EncodeChar

/-! Reading the bytes of a character. -/

theorem toNat_ofNat {n : Nat} (h : n < 256) : (UInt8.ofNat n).toNat = n := by
  rw [UInt8.toNat_ofNat']
  omega

theorem ofByte?_two {n : Nat} (hlow : 2 ≤ n) (hhigh : n < 32) :
    Lead.ofByte? (UInt8.ofNat (n + 192)) = some ⟨0x80, 0xBF, 1, n⟩ := by
  have hall : ∀ n < 32, 2 ≤ n →
      Lead.ofByte? (UInt8.ofNat (n + 192)) = some ⟨0x80, 0xBF, 1, n⟩ := by
    decide
  exact hall n hhigh hlow

theorem ofByte?_three {n : Nat} (h : n < 16) :
    Lead.ofByte? (UInt8.ofNat (n + 224)) =
      some ⟨if n = 0 then 0xA0 else 0x80, if n = 13 then 0x9F else 0xBF, 2, n⟩ := by
  revert n
  decide

theorem ofByte?_four {n : Nat} (h : n < 5) :
    Lead.ofByte? (UInt8.ofNat (n + 240)) =
      some ⟨if n = 0 then 0x90 else 0x80, if n = 4 then 0x8F else 0xBF, 3, n⟩ := by
  revert n
  decide

theorem tail_continuation {low high : UInt8} {n : Nat} (hn : n < 64) (hlow : low.toNat ≤ n + 128)
    (hhigh : n + 128 ≤ high.toNat) (count bits : Nat) (rest : List UInt8) :
    tail low high (count + 1) bits (UInt8.ofNat (n + 128) :: rest) =
      tail 0x80 0xBF count (bits * 64 + n) rest := by
  have hbyte : (UInt8.ofNat (n + 128)).toNat = n + 128 := toNat_ofNat (by omega)
  have hrange : low ≤ UInt8.ofNat (n + 128) ∧ UInt8.ofNat (n + 128) ≤ high := by
    rw [UInt8.le_iff_toNat_le, UInt8.le_iff_toNat_le, hbyte]
    exact ⟨hlow, hhigh⟩
  rw [tail, if_pos hrange, hbyte, Nat.add_sub_cancel]

theorem unitsAfter_lead {lead : Lead} {n : Nat} (hn : 128 ≤ n) (hn' : n < 256)
    (hlead : Lead.ofByte? (UInt8.ofNat n) = some lead) {c : Char} {bytes rest : List UInt8}
    (htail : tail lead.low lead.high lead.count lead.bits bytes = (some c.toNat, rest))
    (done : List (Option Char)) :
    unitsAfter done (UInt8.ofNat n :: bytes) = unitsAfter (some c :: done) rest := by
  have hbyte : ¬UInt8.ofNat n < 0x80 := by
    rw [UInt8.lt_iff_toNat_lt, toNat_ofNat hn', Nat.not_lt]
    exact hn
  rw [unitsAfter, if_neg hbyte, hlead]
  simp only [htail, Option.map_some, Char.ofNat_toNat]

theorem unitsAfter_utf8EncodeChar (done : List (Option Char)) (c : Char) (rest : List UInt8) :
    unitsAfter done (String.utf8EncodeChar c ++ rest) = unitsAfter (some c :: done) rest := by
  have hc : c.val.toNat = c.toNat := rfl
  have hvalid : c.toNat < 0xD800 ∨ 0xDFFF < c.toNat ∧ c.toNat < 0x110000 := c.valid
  unfold String.utf8EncodeChar
  simp only [hc]
  split
  · have hbyte : UInt8.ofNat c.toNat < 0x80 := by
      rw [UInt8.lt_iff_toNat_lt, toNat_ofNat (by omega)]
      exact Nat.lt_succ_of_le ‹c.toNat ≤ 127›
    rw [List.singleton_append, unitsAfter, if_pos hbyte, toNat_ofNat (by omega), Char.ofNat_toNat]
  · split
    · rw [List.cons_append, List.singleton_append]
      refine unitsAfter_lead (by omega) (by omega) (ofByte?_two (by omega) (by omega)) ?_ done
      dsimp only
      rw [tail_continuation (by omega) (by simp) (by simp; omega), tail]
      congr 2
      omega
    · split
      · rw [List.cons_append, List.cons_append, List.singleton_append]
        refine unitsAfter_lead (by omega) (by omega) (ofByte?_three (by omega)) ?_ done
        dsimp only
        rw [tail_continuation (by omega), tail_continuation (by omega) (by simp) (by simp; omega), tail]
        · congr 2
          omega
        · split
          · simp
            omega
          · simp
        · split
          · simp
            omega
          · simp
            omega
      · rw [List.cons_append, List.cons_append, List.cons_append, List.singleton_append]
        refine unitsAfter_lead (by omega) (by omega) (ofByte?_four (by omega)) ?_ done
        dsimp only
        rw [tail_continuation (by omega), tail_continuation (by omega) (by simp) (by simp; omega),
          tail_continuation (by omega) (by simp) (by simp; omega), tail]
        · congr 2
          omega
        · split
          · simp
            omega
          · simp
        · split
          · simp
            omega
          · simp
            omega

theorem unitsAfter_flatMap (done : List (Option Char)) (s : List Char) :
    unitsAfter done (s.flatMap String.utf8EncodeChar) = done.reverse ++ s.map some := by
  induction s generalizing done with
  | nil => rw [List.flatMap_nil, unitsAfter, List.map_nil, List.append_nil]
  | cons c rest ih =>
      rw [List.flatMap_cons, unitsAfter_utf8EncodeChar, ih, List.reverse_cons, List.append_assoc,
        List.map_cons, List.singleton_append]

theorem decode?_encode (s : String) : decode? (encode s) = some s.toList := by
  have hall : ∀ t : List Char, (t.map some).mapM id = some t := by
    intro t
    induction t with
    | nil => rfl
    | cons c rest ih => simp [List.mapM_cons, ih]
  rw [decode?, units, encode_eq_flatMap, unitsAfter_flatMap, List.reverse_nil, List.nil_append, hall]

/-! Bytes as they are shown. -/

theorem unitsAfter_eq (done : List (Option Char)) (bytes : List UInt8) :
    unitsAfter done bytes = done.reverse ++ units bytes := by
  induction hlength : bytes.length using Nat.strongRecOn generalizing done bytes with
  | ind n ih =>
    subst hlength
    cases bytes with
    | nil => rw [units, unitsAfter, unitsAfter, List.reverse_nil, List.append_nil]
    | cons b rest =>
        have hstep : ∀ (u : Option Char) (more : List UInt8), more.length ≤ rest.length →
            unitsAfter (u :: done) more = done.reverse ++ unitsAfter [u] more := by
          intro u more hmore
          have hless : more.length < (b :: rest).length := Nat.lt_succ_of_le hmore
          rw [ih _ hless (u :: done) more rfl, ih _ hless [u] more rfl, List.reverse_cons,
            List.append_assoc, List.reverse_singleton]
        rw [units, unitsAfter, unitsAfter]
        split
        · exact hstep _ _ (Nat.le_refl _)
        · split
          · exact hstep _ _ (Nat.le_refl _)
          · exact hstep _ _ (length_tail_le ..)

theorem units_nil : units [] = [] := by
  rw [units, unitsAfter, List.reverse_nil]

theorem units_ascii {b : UInt8} (hb : b < 0x80) (rest : List UInt8) :
    units (b :: rest) = some (Char.ofNat b.toNat) :: units rest := by
  rw [units, unitsAfter, if_pos hb, unitsAfter_eq, List.reverse_singleton, List.singleton_append]

theorem units_stray {b : UInt8} (hb : ¬b < 0x80) (hlead : Lead.ofByte? b = none) (rest : List UInt8) :
    units (b :: rest) = none :: units rest := by
  rw [units, unitsAfter, if_neg hb, hlead]
  dsimp only
  rw [unitsAfter_eq, List.reverse_singleton, List.singleton_append]

theorem units_lead {b : UInt8} {lead : Lead} (hb : ¬b < 0x80) (hlead : Lead.ofByte? b = some lead)
    (rest : List UInt8) :
    units (b :: rest) =
      (tail lead.low lead.high lead.count lead.bits rest).1.map Char.ofNat ::
        units (tail lead.low lead.high lead.count lead.bits rest).2 := by
  rw [units, unitsAfter, if_neg hb, hlead]
  dsimp only
  rw [unitsAfter_eq, List.reverse_singleton, List.singleton_append]

theorem ofByte?_bounds {b : UInt8} {lead : Lead} (h : Lead.ofByte? b = some lead) :
    0x80 ≤ lead.low ∧ ∃ count, lead.count = count + 1 ∧
      128 ≤ (lead.bits * 64 + (lead.low.toNat - 0x80)) * 64 ^ count := by
  have hall : ∀ n < 256, ∀ lead ∈ Lead.ofByte? (UInt8.ofNat n),
      0x80 ≤ lead.low ∧ lead.count = lead.count - 1 + 1 ∧
        128 ≤ (lead.bits * 64 + (lead.low.toNat - 0x80)) * 64 ^ (lead.count - 1) := by
    decide +kernel
  obtain ⟨hlow, hcount, hbits⟩ := hall b.toNat b.toNat_lt lead (by rw [UInt8.ofNat_toNat, h, Option.mem_def])
  exact ⟨hlow, _, hcount, hbits⟩

theorem le_tail {low high : UInt8} {count bits n : Nat} {bytes : List UInt8}
    (h : (tail low high (count + 1) bits bytes).1 = some n) :
    (bits * 64 + (low.toNat - 0x80)) * 64 ^ count ≤ n := by
  induction count generalizing low high bits bytes with
  | zero =>
      cases bytes with
      | nil => cases h
      | cons b rest =>
          rw [tail] at h
          split at h
          · rename_i hrange
            rw [tail, Option.some.injEq] at h
            have hb := UInt8.le_iff_toNat_le.mp hrange.1
            omega
          · cases h
  | succ count ih =>
      cases bytes with
      | nil => cases h
      | cons b rest =>
          rw [tail] at h
          split at h
          · rename_i hrange
            have hrest := ih h
            have hb := UInt8.le_iff_toNat_le.mp hrange.1
            have hbits : bits * 64 + (low.toNat - 0x80) ≤ bits * 64 + (b.toNat - 0x80) := by omega
            calc
              (bits * 64 + (low.toNat - 0x80)) * 64 ^ (count + 1)
                  ≤ (bits * 64 + (b.toNat - 0x80)) * 64 ^ (count + 1) := Nat.mul_le_mul_right _ hbits
              _ = (bits * 64 + (b.toNat - 0x80)) * 64 * 64 ^ count := by
                rw [Nat.pow_succ', Nat.mul_assoc]
              _ ≤ ((bits * 64 + (b.toNat - 0x80)) * 64 + ((0x80 : UInt8).toNat - 0x80)) * 64 ^ count :=
                Nat.mul_le_mul_right _ (Nat.le_add_right _ _)
              _ ≤ n := hrest
          · cases h

theorem tail_append {low : UInt8} {d : UInt8} (hd : d < 0x80) (hlow : 0x80 ≤ low) (high : UInt8)
    (count bits : Nat) (bytes rest : List UInt8) :
    tail low high count bits (bytes ++ d :: rest) =
      ((tail low high count bits bytes).1, (tail low high count bits bytes).2 ++ d :: rest) := by
  induction bytes generalizing low high count bits with
  | nil =>
      cases count with
      | zero => rfl
      | succ count =>
          have hrange : ¬(low ≤ d ∧ d ≤ high) := by
            rintro ⟨hd', -⟩
            exact Nat.not_le.mpr (UInt8.lt_iff_toNat_lt.mp hd)
              (UInt8.le_iff_toNat_le.mp (UInt8.le_trans hlow hd'))
          have hend : tail low high (count + 1) bits (d :: rest) = (none, d :: rest) := by
            rw [tail, if_neg hrange]
          exact hend
  | cons b more ih =>
      cases count with
      | zero => rfl
      | succ count =>
          rw [List.cons_append, tail, tail]
          split
          · exact ih (UInt8.le_refl _) _ _ _
          · rfl

theorem units_append {d : UInt8} (hd : d < 0x80) (bytes rest : List UInt8) :
    units (bytes ++ d :: rest) = units bytes ++ some (Char.ofNat d.toNat) :: units rest := by
  induction hlength : bytes.length using Nat.strongRecOn generalizing bytes with
  | ind n ih =>
    subst hlength
    cases bytes with
    | nil => rw [List.nil_append, units_ascii hd, units_nil, List.nil_append]
    | cons b more =>
        rw [List.cons_append]
        by_cases hb : b < 0x80
        · rw [units_ascii hb, units_ascii hb, ih _ (Nat.lt_succ_self _) more rfl, List.cons_append]
        · cases hlead : Lead.ofByte? b with
          | none =>
              rw [units_stray hb hlead, units_stray hb hlead, ih _ (Nat.lt_succ_self _) more rfl,
                List.cons_append]
          | some lead =>
              rw [units_lead hb hlead, units_lead hb hlead, tail_append hd (ofByte?_bounds hlead).1,
                ih _ (Nat.lt_succ_of_le (length_tail_le ..)) _ rfl, List.cons_append]

theorem tail_isSuffix (low high : UInt8) (count bits : Nat) (bytes : List UInt8) :
    (tail low high count bits bytes).2 <:+ bytes := by
  induction bytes generalizing low high count bits with
  | nil => cases count <;> exact List.suffix_rfl
  | cons b rest ih =>
      cases count with
      | zero => exact List.suffix_rfl
      | succ count =>
          rw [tail]
          split
          · exact (ih ..).trans (List.suffix_cons b rest)
          · exact List.suffix_rfl

theorem toNat_charOfNat {n : Nat} (h : n.isValidChar) : (Char.ofNat n).toNat = n := by
  rw [Char.ofNat, dif_pos h]
  rfl

/-- A character below 128 is shown for its byte alone. -/
theorem mem_of_mem_units {c : Char} (hzero : 0 < c.toNat) (hc : c.toNat < 128) {bytes : List UInt8}
    (h : some c ∈ units bytes) : UInt8.ofNat c.toNat ∈ bytes := by
  induction hlength : bytes.length using Nat.strongRecOn generalizing bytes with
  | ind n ih =>
    subst hlength
    cases bytes with
    | nil =>
        rw [units_nil] at h
        cases h
    | cons b more =>
        by_cases hb : b < 0x80
        · rw [units_ascii hb, List.mem_cons, Option.some.injEq] at h
          rcases h with rfl | hmore
          · have hvalid : b.toNat.isValidChar := .inl (by have := b.toNat_lt; omega)
            rw [toNat_charOfNat hvalid, UInt8.ofNat_toNat]
            exact List.mem_cons_self
          · exact List.mem_cons_of_mem _ (ih _ (Nat.lt_succ_self _) hmore rfl)
        · cases hlead : Lead.ofByte? b with
          | none =>
              rw [units_stray hb hlead, List.mem_cons] at h
              exact List.mem_cons_of_mem _ (ih _ (Nat.lt_succ_self _) (h.resolve_left nofun) rfl)
          | some lead =>
              rw [units_lead hb hlead, List.mem_cons] at h
              rcases h with hsame | hmore
              · obtain ⟨-, count, hcount, hbits⟩ := ofByte?_bounds hlead
                obtain ⟨code, hcode, hchar⟩ := Option.map_eq_some_iff.mp hsame.symm
                rw [hcount] at hcode
                have hlarge := Nat.le_trans hbits (le_tail hcode)
                rw [← hchar] at hc hzero
                by_cases hvalid : code.isValidChar
                · rw [toNat_charOfNat hvalid] at hc
                  exact absurd hc (Nat.not_lt.mpr hlarge)
                · rw [Char.ofNat, dif_neg hvalid] at hzero
                  cases hzero
              · have hsuffix := tail_isSuffix lead.low lead.high lead.count lead.bits more
                have hless := Nat.lt_succ_of_le hsuffix.length_le
                exact List.mem_cons_of_mem _ (hsuffix.mem (ih _ hless hmore rfl))

theorem decodeLossy_append {d : UInt8} (hd : d < 0x80) (bytes rest : List UInt8) :
    decodeLossy (bytes ++ d :: rest) =
      decodeLossy bytes ++ Char.ofNat d.toNat :: decodeLossy rest := by
  rw [decodeLossy, units_append hd, List.map_append, List.map_cons]
  rfl

theorem mem_of_mem_decodeLossy {c : Char} (hzero : 0 < c.toNat) (hc : c.toNat < 128)
    {bytes : List UInt8} (h : c ∈ decodeLossy bytes) : UInt8.ofNat c.toNat ∈ bytes := by
  obtain ⟨u, hu, rfl⟩ := List.mem_map.mp h
  cases u with
  | none => exact absurd hc (by decide)
  | some c => exact mem_of_mem_units hzero hc hu

theorem decodeLossy_eq_nil_iff {bytes : List UInt8} : decodeLossy bytes = [] ↔ bytes = [] := by
  constructor
  · intro h
    rw [decodeLossy, List.map_eq_nil_iff] at h
    cases bytes with
    | nil => rfl
    | cons b rest =>
        by_cases hb : b < 0x80
        · rw [units_ascii hb] at h
          cases h
        · cases hlead : Lead.ofByte? b with
          | none =>
              rw [units_stray hb hlead] at h
              cases h
          | some lead =>
              rw [units_lead hb hlead] at h
              cases h
  · rintro rfl
    rw [decodeLossy, units_nil, List.map_nil]

theorem decodeLossy_encode (s : String) : decodeLossy (encode s) = s.toList := by
  rw [decodeLossy, units, encode_eq_flatMap, unitsAfter_flatMap, List.reverse_nil, List.nil_append,
    List.map_map]
  exact List.map_id _

end NamelistCatalog.Text.Utf8
