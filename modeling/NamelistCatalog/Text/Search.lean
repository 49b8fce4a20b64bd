namespace NamelistCatalog.Text

def contains (pattern : List Char) : List Char → Bool
  | [] => pattern.isEmpty
  | c :: rest => pattern.isPrefixOf (c :: rest) || contains pattern rest

/-- What stands before and after the first occurrence of `sep`. -/
def splitOnce? (sep : List Char) : List Char → Option (List Char × List Char)
  | [] => if sep.isEmpty then some ([], []) else none
  | c :: rest =>
      if sep.isPrefixOf (c :: rest) then some ([], (c :: rest).drop sep.length)
      else (splitOnce? sep rest).map fun parts => (c :: parts.1, parts.2)

/-- The text without `start` in front, if it stands there. -/
def dropStart? (start s : List Char) : Option (List Char) :=
  if start.isPrefixOf s then some (s.drop start.length) else none

/-- The text without `ending` at its end, if it stands there. -/
def dropEnd? (ending s : List Char) : Option (List Char) :=
  if ending.isSuffixOf s then some (s.take (s.length - ending.length)) else none

theorem dropStart?_append (start s : List Char) : dropStart? start (start ++ s) = some s := by
  rw [dropStart?, if_pos, List.drop_left]
  rw [List.isPrefixOf_iff_prefix]
  exact List.prefix_append start s

theorem dropEnd?_append (s ending : List Char) : dropEnd? ending (s ++ ending) = some s := by
  rw [dropEnd?, if_pos, List.length_append, Nat.add_sub_cancel, List.take_left]
  rw [List.isSuffixOf_iff_suffix]
  exact List.suffix_append s ending

theorem dropEnd?_eq_none {ending s : List Char} (h : ¬ending <:+ s) : dropEnd? ending s = none := by
  rw [dropEnd?, if_neg]
  rw [List.isSuffixOf_iff_suffix]
  exact h

theorem contains_iff {pattern s : List Char} :
    contains pattern s = true ↔ ∃ before after, s = before ++ (pattern ++ after) := by
  induction s with
  | nil =>
      simp only [contains, List.isEmpty_iff]
      constructor
      · rintro rfl
        exact ⟨[], [], rfl⟩
      · rintro ⟨before, after, h⟩
        simp_all
  | cons c rest ih =>
      simp only [contains, Bool.or_eq_true, ih, List.isPrefixOf_iff_prefix]
      constructor
      · rintro (⟨after, h⟩ | ⟨before, after, h⟩)
        · exact ⟨[], after, h.symm⟩
        · exact ⟨c :: before, after, by simp [h]⟩
      · rintro ⟨before, after, h⟩
        cases before with
        | nil => exact .inl ⟨after, h.symm⟩
        | cons b before =>
            have h := List.cons.inj h
            exact .inr ⟨before, after, h.2⟩

theorem eq_append_of_splitOnce? {sep s before after : List Char}
    (h : splitOnce? sep s = some (before, after)) : s = before ++ (sep ++ after) := by
  induction s generalizing before with
  | nil =>
      simp only [splitOnce?, List.isEmpty_iff] at h
      split at h <;> simp_all
  | cons c rest ih =>
      simp only [splitOnce?] at h
      split at h
      · rename_i hp
        obtain ⟨tail, ht⟩ := List.isPrefixOf_iff_prefix.mp hp
        simp only [Option.some.injEq, Prod.mk.injEq] at h
        obtain ⟨rfl, rfl⟩ := h
        simp [← ht]
      · obtain ⟨parts, hparts, heq⟩ := Option.map_eq_some_iff.mp h
        simp only [Prod.mk.injEq] at heq
        obtain ⟨rfl, rfl⟩ := heq
        simp [ih hparts]

end NamelistCatalog.Text
