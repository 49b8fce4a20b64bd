import NamelistCatalog.Text.Lines

namespace NamelistCatalog.Text

/-- The paragraphs of a text, in their order. No paragraph holds a pair of line feeds, and none makes one
up with the first line feed of the pair that ends it. -/
inductive HasParagraphs : List Char → List (List Char) → Prop where
  | last {p : List Char} (hp : ¬['\n', '\n'] <:+: p) : HasParagraphs p [p]
  | more {p s : List Char} {ps : List (List Char)} (hp : ¬['\n', '\n'] <:+: p ++ ['\n'])
      (h : HasParagraphs s ps) : HasParagraphs (p ++ '\n' :: '\n' :: s) (p :: ps)

variable {s p : List Char} {ps : List (List Char)} {c : Char}

theorem paragraphs_cons (h : ¬['\n', '\n'] <+: c :: s) :
    paragraphs (c :: s) = consFirst c (paragraphs s) := by
  rw [paragraphs]
  rintro rest rfl rfl
  exact h (List.prefix_append ['\n', '\n'] rest)

theorem paragraphs_eq_singleton (h : ¬['\n', '\n'] <:+: p) : paragraphs p = [p] := by
  induction p with
  | nil => rfl
  | cons c rest ih =>
      rw [List.infix_cons_iff, not_or] at h
      rw [paragraphs_cons h.1, ih h.2, consFirst]

theorem paragraphs_append (h : ¬['\n', '\n'] <:+: p ++ ['\n']) (s : List Char) :
    paragraphs (p ++ '\n' :: '\n' :: s) = p :: paragraphs s := by
  induction p with
  | nil => rfl
  | cons c rest ih =>
      rw [List.cons_append, List.infix_cons_iff, not_or] at h
      have hfirst : ¬['\n', '\n'] <+: c :: (rest ++ '\n' :: '\n' :: s) := by
        intro hpair
        have hfront : c :: (rest ++ ['\n']) <+: c :: (rest ++ '\n' :: '\n' :: s) := by simp
        exact h.1 (List.prefix_of_prefix_length_le hpair hfront (by simp))
      rw [List.cons_append, paragraphs_cons hfirst, ih h.2, consFirst]

theorem hasParagraphs_paragraphs (s : List Char) : HasParagraphs s (paragraphs s) := by
  fun_induction paragraphs s with
  | case1 rest ih => exact .more (p := []) (by decide) ih
  | case2 c rest hpair ih =>
      have hfirst : ∀ t, t <+: rest → ¬['\n', '\n'] <+: c :: t := by
        rintro t ⟨after, rfl⟩ ⟨between, hbetween⟩
        obtain ⟨rfl, rfl⟩ := List.cons.inj hbetween
        exact hpair _ rfl rfl
      generalize paragraphs rest = ps at ih
      cases ih with
      | last hp =>
          refine .last ?_
          rw [List.infix_cons_iff, not_or]
          exact ⟨hfirst _ List.prefix_rfl, hp⟩
      | more hp h =>
          refine .more (p := c :: _) ?_ h
          rw [List.cons_append, List.infix_cons_iff, not_or]
          exact ⟨hfirst _ (by simp), hp⟩
  | case3 => exact .last (by simp)

theorem hasParagraphs_iff : HasParagraphs s ps ↔ ps = paragraphs s := by
  constructor
  · intro h
    induction h with
    | last hp => rw [paragraphs_eq_singleton hp]
    | more hp _ ih => rw [paragraphs_append hp, ih]
  · rintro rfl
    exact hasParagraphs_paragraphs s

theorem HasParagraphs.isBlankText_iff (h : HasParagraphs s ps) :
    isBlankText s = true ↔ ∀ p ∈ ps, isBlankText p = true := by
  induction h with
  | last hp => rw [List.forall_mem_singleton]
  | more hp _ ih =>
      have hfeed : isBlank '\n' = true := by decide
      rw [List.forall_mem_cons, ← ih, isBlankText, List.all_append, Bool.and_eq_true, List.all_cons,
        List.all_cons, hfeed, Bool.true_and, Bool.true_and, ← isBlankText, ← isBlankText]

end NamelistCatalog.Text
