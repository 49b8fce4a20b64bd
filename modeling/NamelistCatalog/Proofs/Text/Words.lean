import NamelistCatalog.Proofs.Text.Join
import NamelistCatalog.Proofs.Text.Lines
import NamelistCatalog.Proofs.Text.Search

namespace NamelistCatalog.Text

/-- The only blanks are spaces, so nothing in the text ends a line. -/
def IsLine (s : List Char) : Prop := ∀ c ∈ s, isBlank c = true → c = ' '

theorem IsLine.append {s t : List Char} (hs : IsLine s) (ht : IsLine t) : IsLine (s ++ t) := by
  intro c hc
  rcases List.mem_append.mp hc with hc | hc
  · exact hs c hc
  · exact ht c hc

theorem IsLine.of_subset {s t : List Char} (ht : IsLine t) (h : s ⊆ t) : IsLine s :=
  fun c hc => ht c (h hc)

theorem IsLine.newline_not_mem {s : List Char} (h : IsLine s) : '\n' ∉ s := by
  intro hmem
  have hspace := h '\n' hmem (by decide)
  cases hspace

/-- The words of a text, in their order: the maximal runs of characters that are not blank. -/
inductive HasWords : List Char → List (List Char) → Prop where
  | nil : HasWords [] []
  | blank {c : Char} {s : List Char} {ws : List (List Char)} (hc : isBlank c = true)
      (h : HasWords s ws) : HasWords (c :: s) ws
  | word {w s : List Char} {ws : List (List Char)} (hne : w ≠ []) (hw : ∀ c ∈ w, isBlank c = false)
      (hs : ∀ c ∈ s.head?, isBlank c = true) (h : HasWords s ws) : HasWords (w ++ s) (w :: ws)

/-- A text in which each blank is a single space between other characters. -/
structure IsSingleSpaced (s : List Char) : Prop where
  line : IsLine s
  single : ¬[' ', ' '] <:+: s
  trimmed : IsTrimmed s

variable {s t w : List Char} {ws : List (List Char)} {c : Char}

/-! A text is cut into words on both sides of a blank as if each side stood alone. -/

theorem fields_append {p : Char → Bool} (hc : p c = true) (s t : List Char) :
    fields p (s ++ c :: t) = fields p s ++ fields p t := by
  induction s with
  | nil =>
      rw [List.nil_append, fields, cutAt_cons, if_pos hc]
      rfl
  | cons d rest ih =>
      obtain ⟨hfirst, hmore⟩ := List.cons.inj ih
      rw [List.cons_append, fields, fields, cutAt_cons, cutAt_cons, hfirst, hmore]
      split
      · rfl
      · rfl

theorem words_append (hc : isBlank c = true) (s t : List Char) :
    words (s ++ c :: t) = words s ++ words t := by
  rw [words, fields_append hc, List.filter_append, words, words]

theorem words_cons (hc : isBlank c = true) (s : List Char) : words (c :: s) = words s :=
  words_append hc [] s

theorem words_eq_nil (h : isBlankText s = true) : words s = [] := by
  induction s with
  | nil => rfl
  | cons c rest ih =>
      rw [isBlankText_cons, Bool.and_eq_true] at h
      rw [words_cons h.1, ih h.2]

theorem words_append_blank (s : List Char) (ht : isBlankText t = true) :
    words (s ++ t) = words s := by
  cases t with
  | nil => rw [List.append_nil]
  | cons c rest =>
      rw [isBlankText_cons, Bool.and_eq_true] at ht
      rw [words_append ht.1, words_eq_nil ht.2, List.append_nil]

theorem words_trimStart (s : List Char) : words (trimStart s) = words s := by
  induction s with
  | nil => rfl
  | cons c rest ih =>
      by_cases hc : isBlank c = true
      · rw [words_cons hc, ← ih, trimStart, List.dropWhile_cons_of_pos hc, trimStart]
      · rw [trimStart, List.dropWhile_cons_of_neg hc]

theorem words_trim (s : List Char) : words (trim s) = words s := by
  obtain ⟨blanks, hblanks, hstart⟩ := exists_trimEnd_append (trimStart s)
  rw [trim, ← words_append_blank _ hblanks, hstart, words_trimStart]

theorem words_append_word (hne : w ≠ []) (hw : ∀ c ∈ w, isBlank c = false)
    (hs : ∀ c ∈ s.head?, isBlank c = true) : words (w ++ s) = w :: words s := by
  have halone : words w = [w] := by
    rw [words, fields_eq_singleton hw, List.filter_cons_of_pos (by simpa using hne), List.filter_nil]
  cases s with
  | nil => rw [List.append_nil, halone]; rfl
  | cons c rest =>
      have hc : isBlank c = true := hs c rfl
      rw [words_append hc, words_cons hc, halone, List.singleton_append]

theorem hasWords_words (s : List Char) : HasWords s (words s) := by
  induction hlength : s.length using Nat.strongRecOn generalizing s with
  | _ n ih =>
      cases s with
      | nil => exact .nil
      | cons c rest =>
          by_cases hc : isBlank c = true
          · rw [words_cons hc]
            exact .blank hc (ih rest.length (by simp [← hlength]) rest rfl)
          · -- The word in front is not empty, and a blank or nothing follows it.
            have hfirst : (!isBlank c) = true := by simpa using hc
            have hne : (c :: rest).takeWhile (fun d => !isBlank d) ≠ [] := by
              rw [List.takeWhile_cons, if_pos hfirst]
              exact List.cons_ne_nil _ _
            have hword : ∀ d ∈ (c :: rest).takeWhile (fun d => !isBlank d), isBlank d = false := by
              intro d hd
              simpa using List.mem_takeWhile_imp hd
            have hnext : ∀ d ∈ ((c :: rest).dropWhile fun d => !isBlank d).head?,
                isBlank d = true := by
              intro d hd
              simpa using eq_false_of_mem_head?_dropWhile hd
            have hshort : ((c :: rest).dropWhile fun d => !isBlank d).length < n := by
              rw [List.dropWhile_cons, if_pos hfirst, ← hlength, List.length_cons]
              exact Nat.lt_succ_of_le (List.dropWhile_suffix _).length_le
            have hparts := HasWords.word hne hword hnext (ih _ hshort _ rfl)
            rw [← words_append_word hne hword hnext, List.takeWhile_append_dropWhile] at hparts
            exact hparts

theorem hasWords_iff : HasWords s ws ↔ ws = words s := by
  constructor
  · intro h
    induction h with
    | nil => rfl
    | blank hc _ ih => rw [words_cons hc, ih]
    | word hne hw hs _ ih => rw [words_append_word hne hw hs, ih]
  · rintro rfl
    exact hasWords_words s

theorem mem_words (h : w ∈ words s) : w ≠ [] ∧ ∀ c ∈ w, isBlank c = false := by
  obtain ⟨hfield, hne⟩ := List.mem_filter.mp h
  exact ⟨by simpa using hne, fun c hc => eq_false_of_mem_fields hfield hc⟩

theorem isBlankText_of_words_eq_nil (h : words s = []) : isBlankText s = true := by
  have hwords := hasWords_words s
  generalize words s = ws at h hwords
  induction hwords with
  | nil => rfl
  | blank hc _ ih => rw [isBlankText_cons, hc, ih h, Bool.true_and]
  | word _ _ _ _ _ => cases h

/-! Single-spaced texts. -/

theorem isSingleSpaced_of_forall (h : ∀ c ∈ s, isBlank c = false) : IsSingleSpaced s where
  line := fun c hc hblank => by
    rw [h c hc] at hblank
    cases hblank
  single := fun hpair => by
    have hspace := h ' ' (hpair.mem (by simp))
    cases hspace
  trimmed := isTrimmed_of_forall h

theorem IsSingleSpaced.of_isPrefix (ht : IsSingleSpaced t) (h : s <+: t)
    (hlast : ∀ c ∈ s.getLast?, isBlank c = false) : IsSingleSpaced s where
  line := ht.line.of_subset h.subset
  single := fun hpair => ht.single (hpair.trans h.isInfix)
  trimmed := ⟨fun c hc => ht.trimmed.1 c (mem_head?_of_isPrefix h hc), hlast⟩

theorem IsSingleSpaced.trimEnd (h : IsSingleSpaced t) (hs : s <+: t) :
    IsSingleSpaced (trimEnd s) :=
  h.of_isPrefix ((dropEndWhile_isPrefix isBlank s).trans hs)
    fun _ hc => eq_false_of_mem_getLast?_dropEndWhile hc

theorem infix_pair_append_cons_iff (hc : isBlank c = false) :
    [' ', ' '] <:+: s ++ c :: t ↔ [' ', ' '] <:+: s ∨ [' ', ' '] <:+: t := by
  have hspace : c ∉ [' ', ' '] := by
    intro hmem
    rw [List.eq_of_mem_replicate (n := 2) hmem] at hc
    cases hc
  simp only [← contains_iff_isInfix, contains_append_cons hspace, Bool.or_eq_true]

theorem IsSingleSpaced.not_infix_append (hs : IsSingleSpaced s) (hne : s ≠ [])
    (ht : ¬[' ', ' '] <:+: t) : ¬[' ', ' '] <:+: s ++ t := by
  obtain ⟨front, c, rfl⟩ := (List.eq_nil_or_concat' s).resolve_left hne
  have hc : isBlank c = false := hs.trimmed.2 c (by simp)
  have hfront : ¬[' ', ' '] <:+: front :=
    fun h => hs.single (h.trans (List.prefix_append front [c]).isInfix)
  rw [List.append_assoc, List.singleton_append, infix_pair_append_cons_iff hc]
  exact not_or.mpr ⟨hfront, ht⟩

theorem IsSingleSpaced.append (hs : IsSingleSpaced s) (ht : IsSingleSpaced t) :
    IsSingleSpaced (s ++ t) := by
  by_cases hne : s = []
  · rw [hne, List.nil_append]
    exact ht
  · exact ⟨hs.line.append ht.line, hs.not_infix_append hne ht.single, hs.trimmed.append ht.trimmed⟩

theorem IsSingleSpaced.append_space (hs : IsSingleSpaced s) (hsne : s ≠ []) (ht : IsSingleSpaced t)
    (htne : t ≠ []) : IsSingleSpaced (s ++ ' ' :: t) := by
  obtain ⟨d, rest, rfl⟩ := List.exists_cons_of_ne_nil htne
  have hd : isBlank d = false := ht.trimmed.1 d rfl
  have hpair : ¬[' ', ' '] <:+: ' ' :: d :: rest := by
    change ¬[' ', ' '] <:+: [' '] ++ d :: rest
    rw [infix_pair_append_cons_iff hd, not_or]
    exact ⟨by decide, fun h => ht.single (h.trans (List.suffix_cons d rest).isInfix)⟩
  refine ⟨hs.line.append ?_, hs.not_infix_append hsne hpair, ?_⟩
  · intro c hc hblank
    rcases List.mem_cons.mp hc with rfl | hc
    · rfl
    · exact ht.line c hc hblank
  · apply isTrimmed_append hsne (by simp) hs.trimmed.1
    rw [getLast?_cons_right (by simp)]
    exact ht.trimmed.2

theorem isSingleSpaced_joinWith (hws : ∀ w ∈ ws, w ≠ [] ∧ ∀ c ∈ w, isBlank c = false) :
    IsSingleSpaced (joinWith [' '] ws) := by
  induction ws with
  | nil => exact isSingleSpaced_of_forall (by simp [joinWith])
  | cons w rest ih =>
      rw [List.forall_mem_cons] at hws
      have hw := isSingleSpaced_of_forall hws.1.2
      by_cases hrest : rest = []
      · rw [hrest]
        exact hw
      · rw [joinWith_cons w hrest, List.append_assoc, List.singleton_append]
        exact hw.append_space hws.1.1 (ih hws.2) (joinWith_ne_nil hrest fun w hw => (hws.2 w hw).1)

end NamelistCatalog.Text
