import NamelistCatalog.Text.Search

namespace NamelistCatalog.Text

variable {pattern s t before after : List Char} {c : Char}

theorem contains_iff_isInfix : contains pattern s = true ↔ pattern <:+: s := by
  rw [contains_iff]
  constructor
  · rintro ⟨before, after, rfl⟩
    exact ⟨before, after, List.append_assoc _ _ _⟩
  · rintro ⟨before, after, rfl⟩
    exact ⟨before, after, List.append_assoc _ _ _⟩

theorem contains_eq_false_of_not_mem (hc : c ∈ pattern) (hs : c ∉ s) : contains pattern s = false := by
  rw [← Bool.not_eq_true, contains_iff]
  rintro ⟨before, after, rfl⟩
  exact hs (List.mem_append_right before (List.mem_append_left after hc))

theorem isPrefix_of_isPrefix_append_cons (hc : c ∉ pattern) (h : pattern <+: s ++ c :: t) :
    pattern <+: s := by
  have hfront : s ++ [c] <+: s ++ c :: t := by simp
  rcases List.prefix_or_prefix_of_prefix h hfront with h | h
  · rcases List.prefix_concat_iff.mp h with rfl | h
    · simp at hc
    · exact h
  · exact absurd (h.mem (by simp)) hc

/-- A pattern does not reach across a character that it lacks. -/
theorem contains_append_cons (hc : c ∉ pattern) :
    contains pattern (s ++ c :: t) = (contains pattern s || contains pattern t) := by
  induction s with
  | nil =>
      rw [List.nil_append, contains, contains]
      congr 1
      rw [Bool.eq_iff_iff, List.isPrefixOf_iff_prefix, List.isEmpty_iff]
      constructor
      · intro h
        exact List.prefix_nil.mp (isPrefix_of_isPrefix_append_cons (s := []) hc h)
      · rintro rfl
        exact List.nil_prefix
  | cons d rest ih =>
      rw [List.cons_append, contains, contains, ih, Bool.or_assoc]
      congr 1
      rw [Bool.eq_iff_iff, List.isPrefixOf_iff_prefix, List.isPrefixOf_iff_prefix]
      constructor
      · exact isPrefix_of_isPrefix_append_cons (s := d :: rest) hc
      · intro h
        exact h.trans (List.prefix_append (d :: rest) (c :: t))

/-- The pattern is first found behind `s` if no part of it stands there earlier. -/
theorem splitOnce?_append (hpattern : pattern ≠ []) (h : contains pattern (s ++ pattern.dropLast) = false)
    (t : List Char) : splitOnce? pattern (s ++ (pattern ++ t)) = some (s, t) := by
  induction s with
  | nil =>
      obtain ⟨c, rest, rfl⟩ := List.exists_cons_of_ne_nil hpattern
      have hprefix : (c :: rest).isPrefixOf (c :: (rest ++ t)) = true :=
        List.isPrefixOf_iff_prefix.mpr (List.prefix_append (c :: rest) t)
      rw [List.nil_append, List.cons_append, splitOnce?, if_pos hprefix, ← List.cons_append,
        List.drop_left]
  | cons d rest ih =>
      rw [List.cons_append, contains, Bool.or_eq_false_iff] at h
      have hlater : ¬pattern.isPrefixOf (d :: (rest ++ (pattern ++ t))) = true := by
        rw [List.isPrefixOf_iff_prefix]
        intro hprefix
        -- The pattern would end within what stands before its own last character.
        have hfront : d :: (rest ++ pattern.dropLast) <+: d :: (rest ++ (pattern ++ t)) :=
          (List.prefix_append_right_inj (d :: rest)).mpr
            ((List.dropLast_prefix pattern).trans (List.prefix_append pattern t))
        have hshort : pattern.length ≤ (d :: (rest ++ pattern.dropLast)).length := by
          simp
          omega
        have hinside := List.prefix_of_prefix_length_le hprefix hfront hshort
        rw [List.isPrefixOf_iff_prefix.mpr hinside] at h
        cases h.1
      rw [List.cons_append, splitOnce?, if_neg hlater, ih h.2, Option.map_some]

theorem splitOnce?_eq_none_iff (hpattern : pattern ≠ []) :
    splitOnce? pattern s = none ↔ ¬pattern <:+: s := by
  induction s with
  | nil => simp [splitOnce?, hpattern]
  | cons c rest ih =>
      rw [splitOnce?, List.infix_cons_iff, not_or, ← ih, ← List.isPrefixOf_iff_prefix]
      split
      · rename_i hhere
        simp [hhere]
      · rename_i hhere
        simp [hhere]

theorem contains_eq_false_of_length_lt (h : s.length < pattern.length) :
    contains pattern s = false := by
  rw [← Bool.not_eq_true, contains_iff_isInfix]
  intro hinfix
  exact absurd hinfix.length_le (Nat.not_le_of_lt h)

theorem contains_eq_false_of_splitOnce? (hpattern : pattern ≠ [])
    (h : splitOnce? pattern s = some (before, after)) :
    contains pattern (before ++ pattern.dropLast) = false := by
  have hshort : pattern.dropLast.length < pattern.length := by
    rw [List.length_dropLast]
    exact Nat.sub_lt (List.length_pos_iff.mpr hpattern) Nat.one_pos
  induction s generalizing before with
  | nil => simp [splitOnce?, hpattern] at h
  | cons c rest ih =>
      rw [splitOnce?] at h
      split at h
      · obtain ⟨rfl, -⟩ := Prod.mk.inj (Option.some.inj h)
        exact contains_eq_false_of_length_lt hshort
      · rename_i hfirst
        obtain ⟨⟨front, rest'⟩, hparts, heq⟩ := Option.map_eq_some_iff.mp h
        obtain ⟨rfl, rfl⟩ := Prod.mk.inj heq
        rw [List.cons_append, contains, ih hparts, Bool.or_false, ← Bool.not_eq_true]
        intro hhere
        -- The pattern would stand in front of the whole text.
        have hwhole : c :: (front ++ pattern.dropLast) <+: c :: rest := by
          rw [eq_append_of_splitOnce? hparts, List.prefix_cons_inj, List.prefix_append_right_inj]
          exact (List.dropLast_prefix pattern).trans (List.prefix_append pattern _)
        rw [List.isPrefixOf_iff_prefix] at hhere hfirst
        exact hfirst (hhere.trans hwhole)

end NamelistCatalog.Text
