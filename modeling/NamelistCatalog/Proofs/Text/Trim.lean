import Mathlib.Data.List.DropRight
import NamelistCatalog.Proofs.Version

namespace NamelistCatalog.Text

/-- Neither the first nor the last character is a blank. -/
def IsTrimmed (s : List Char) : Prop :=
  (∀ c ∈ s.head?, isBlank c = false) ∧ ∀ c ∈ s.getLast?, isBlank c = false

theorem isTrimmed_iff {s : List Char} :
    IsTrimmed s ↔
      s.head?.all (fun c => !isBlank c) = true ∧ s.getLast?.all (fun c => !isBlank c) = true := by
  simp [IsTrimmed, Option.all_eq_true]

instance (s : List Char) : Decidable (IsTrimmed s) := decidable_of_iff' _ isTrimmed_iff

theorem dropEndWhile_isPrefix {α : Type} (p : α → Bool) (s : List α) : dropEndWhile p s <+: s := by
  rw [dropEndWhile, ← List.reverse_suffix, List.reverse_reverse]
  exact List.dropWhile_suffix p

theorem trim_isInfix (s : List Char) : trim s <:+: s := by
  have hend : trim s <+: trimStart s := dropEndWhile_isPrefix isBlank (trimStart s)
  exact hend.isInfix.trans (List.dropWhile_suffix isBlank).isInfix

theorem eq_false_of_mem_head?_dropWhile {α : Type} {p : α → Bool} {s : List α} {c : α}
    (h : c ∈ (s.dropWhile p).head?) : p c = false := by
  have hhead := List.head?_dropWhile_not p s
  rw [Option.mem_def] at h
  simpa [h] using hhead

theorem eq_false_of_mem_getLast?_dropEndWhile {α : Type} {p : α → Bool} {s : List α} {c : α}
    (h : c ∈ (dropEndWhile p s).getLast?) : p c = false := by
  rw [dropEndWhile, List.getLast?_reverse] at h
  exact eq_false_of_mem_head?_dropWhile h

theorem mem_head?_of_isPrefix {s t : List Char} (h : s <+: t) {c : Char} (hc : c ∈ s.head?) :
    c ∈ t.head? := by
  obtain ⟨rest, rfl⟩ := h
  rw [Option.mem_def] at hc ⊢
  rw [List.head?_append, hc, Option.some_or]

theorem isTrimmed_trim (s : List Char) : IsTrimmed (trim s) := by
  refine ⟨fun c hc => ?_, fun c hc => eq_false_of_mem_getLast?_dropEndWhile hc⟩
  -- What trimming at the end leaves starts where the text starts.
  exact eq_false_of_mem_head?_dropWhile
    (mem_head?_of_isPrefix (dropEndWhile_isPrefix isBlank (trimStart s)) hc)

theorem dropWhile_eq_self {α : Type} {p : α → Bool} {s : List α} (h : ∀ c ∈ s.head?, p c = false) :
    s.dropWhile p = s := by
  cases s with
  | nil => rfl
  | cons c rest =>
      have hc : p c = false := h c rfl
      rw [List.dropWhile_cons_of_neg (by simp [hc])]

theorem takeWhile_append_of_head? {p : Char → Bool} {s t : List Char} (hs : ∀ c ∈ s, p c = true)
    (ht : ∀ c ∈ t.head?, p c = false) : (s ++ t).takeWhile p = s := by
  rw [List.takeWhile_append_of_pos hs]
  cases t with
  | nil => exact List.append_nil s
  | cons c rest => rw [List.takeWhile_cons_of_neg (by simp [ht c rfl]), List.append_nil]

theorem dropWhile_append_of_head? {p : Char → Bool} {s t : List Char} (hs : ∀ c ∈ s, p c = true)
    (ht : ∀ c ∈ t.head?, p c = false) : (s ++ t).dropWhile p = t := by
  rw [List.dropWhile_append_of_pos hs, dropWhile_eq_self ht]

theorem dropEndWhile_eq_self {α : Type} {p : α → Bool} {s : List α}
    (h : ∀ c ∈ s.getLast?, p c = false) : dropEndWhile p s = s := by
  rw [dropEndWhile, dropWhile_eq_self (by simpa only [List.head?_reverse] using h),
    List.reverse_reverse]

theorem trim_eq_self_iff {s : List Char} : trim s = s ↔ IsTrimmed s := by
  constructor
  · intro h
    rw [← h]
    exact isTrimmed_trim s
  · rintro ⟨hfirst, hlast⟩
    have hstart : trimStart s = s := dropWhile_eq_self hfirst
    rw [trim, hstart, trimEnd, dropEndWhile_eq_self hlast]

theorem trim_cons {c : Char} (hc : isBlank c = true) (s : List Char) : trim (c :: s) = trim s := by
  rw [trim, trimStart, List.dropWhile_cons_of_pos hc, trim, trimStart]

theorem trimEnd_concat {c : Char} (hc : isBlank c = true) (s : List Char) :
    trimEnd (s ++ [c]) = trimEnd s := by
  rw [trimEnd, dropEndWhile, List.reverse_append, List.reverse_singleton, List.singleton_append,
    List.dropWhile_cons_of_pos hc, trimEnd, dropEndWhile]

theorem trimEnd_cons {c : Char} (hc : isBlank c = false) (s : List Char) :
    trimEnd (c :: s) = c :: trimEnd s := by
  rw [trimEnd, dropEndWhile, List.reverse_cons, List.dropWhile_append,
    List.dropWhile_cons_of_neg (by simp [hc]), trimEnd, dropEndWhile]
  split
  · rename_i hempty
    rw [List.isEmpty_iff.mp hempty]
    rfl
  · rw [List.reverse_append, List.reverse_singleton, List.singleton_append]

theorem trimEnd_append_cons {c : Char} (hc : isBlank c = false) (s t : List Char) :
    trimEnd (s ++ c :: t) = s ++ c :: trimEnd t := by
  induction s with
  | nil => exact trimEnd_cons hc t
  | cons d rest ih =>
      have hkept : (rest ++ c :: t).reverse.dropWhile isBlank ≠ [] := by
        intro hnil
        rw [trimEnd, dropEndWhile, hnil] at ih
        simp at ih
      rw [List.cons_append, trimEnd, dropEndWhile, List.reverse_cons, List.dropWhile_append,
        if_neg (by simpa using hkept), List.reverse_append, List.reverse_singleton,
        List.singleton_append, ← dropEndWhile, ← trimEnd, ih, List.cons_append]

theorem isBlank_of_trimStart_eq_cons {s rest : List Char} {c : Char} (h : trimStart s = c :: rest) :
    isBlank c = false := by
  apply eq_false_of_mem_head?_dropWhile (s := s)
  rw [← trimStart, h]
  rfl

theorem trim_cons_of_not_blank {c : Char} (hc : isBlank c = false) (s : List Char) :
    trim (c :: s) = c :: trimEnd s := by
  rw [trim, trimStart, List.dropWhile_cons_of_neg (by simp [hc]), trimEnd_cons hc]

theorem head?_trim (s : List Char) : (trim s).head? = (trimStart s).head? := by
  rw [trim]
  cases hstart : trimStart s with
  | nil => rfl
  | cons c rest =>
      rw [trimEnd_cons (isBlank_of_trimStart_eq_cons hstart)]
      rfl

theorem getLast?_append_right {α : Type} {s t : List α} (h : t ≠ []) :
    (s ++ t).getLast? = t.getLast? := by
  rw [List.getLast?_append, List.getLast?_eq_some_getLast h, Option.some_or]

theorem getLast?_cons_right {α : Type} {s : List α} (h : s ≠ []) (c : α) :
    (c :: s).getLast? = s.getLast? := getLast?_append_right (s := [c]) h

theorem isTrimmed_append {s t : List Char} (hs : s ≠ []) (ht : t ≠ [])
    (hfirst : ∀ c ∈ s.head?, isBlank c = false) (hlast : ∀ c ∈ t.getLast?, isBlank c = false) :
    IsTrimmed (s ++ t) := by
  refine ⟨?_, ?_⟩
  · rw [List.head?_append, List.head?_eq_some_head hs, Option.some_or, ← List.head?_eq_some_head hs]
    exact hfirst
  · rw [getLast?_append_right ht]
    exact hlast

theorem isTrimmed_of_forall {s : List Char} (h : ∀ c ∈ s, isBlank c = false) : IsTrimmed s :=
  ⟨fun c hc => h c (List.mem_of_mem_head? hc), fun c hc => h c (List.mem_of_getLast? hc)⟩

theorem IsTrimmed.append {s t : List Char} (hs : IsTrimmed s) (ht : IsTrimmed t) :
    IsTrimmed (s ++ t) := by
  by_cases hsne : s = []
  · rw [hsne, List.nil_append]
    exact ht
  · by_cases htne : t = []
    · rw [htne, List.append_nil]
      exact hs
    · exact isTrimmed_append hsne htne hs.1 ht.2

theorem trimStart_append_of_blank {before : List Char} (h : isBlankText before = true)
    (s : List Char) : trimStart (before ++ s) = trimStart s :=
  List.dropWhile_append_of_pos (List.all_eq_true.mp h)

theorem trimStart_eq_nil {s : List Char} (h : isBlankText s = true) : trimStart s = [] := by
  rw [← List.append_nil s, trimStart_append_of_blank h]
  rfl

theorem trimEnd_append_of_blank {after : List Char} (h : isBlankText after = true) (s : List Char) :
    trimEnd (s ++ after) = trimEnd s := by
  have hreverse : ∀ c ∈ after.reverse, isBlank c = true := by simpa [isBlankText] using h
  rw [trimEnd, dropEndWhile, List.reverse_append, List.dropWhile_append_of_pos hreverse, trimEnd,
    dropEndWhile]

theorem trimStart_append {s : List Char} (hs : IsTrimmed s) (hne : s ≠ []) (t : List Char) :
    trimStart (s ++ t) = s ++ t := by
  apply dropWhile_eq_self
  rw [List.head?_append, List.head?_eq_some_head hne, Option.some_or, ← List.head?_eq_some_head hne]
  exact hs.1

theorem trim_surrounded {before s after : List Char} (hbefore : isBlankText before = true)
    (hs : IsTrimmed s) (hne : s ≠ []) (hafter : isBlankText after = true) :
    trim (before ++ (s ++ after)) = s := by
  rw [trim, trimStart_append_of_blank hbefore, trimStart_append hs hne,
    trimEnd_append_of_blank hafter, trimEnd, dropEndWhile_eq_self hs.2]

theorem trim_indented {before s : List Char} (hbefore : isBlankText before = true)
    (hs : IsTrimmed s) : trim (before ++ s) = s := by
  rw [trim, trimStart_append_of_blank hbefore]
  exact trim_eq_self_iff.mpr hs

theorem trim_concat {s : List Char} {c : Char} (hs : IsTrimmed s) (hne : s ≠ [])
    (hc : isBlank c = true) : trim (s ++ [c]) = s :=
  @trim_surrounded [] s [c] rfl hs hne (by simpa [isBlankText] using hc)

theorem trimEnd_append {s : List Char} (hne : s ≠ []) (hs : ∀ c ∈ s.getLast?, isBlank c = false)
    (t : List Char) : trimEnd (s ++ t) = s ++ trimEnd t := by
  have hlast : isBlank (s.getLast hne) = false := hs _ (List.getLast?_eq_some_getLast hne)
  rw [← List.dropLast_concat_getLast hne, List.append_assoc, List.singleton_append,
    trimEnd_append_cons hlast, List.append_assoc, List.singleton_append]

theorem IsTrimmed.trim_append {s : List Char} (hs : IsTrimmed s) (hne : s ≠ []) (t : List Char) :
    trim (s ++ t) = s ++ trimEnd t := by
  rw [trim, trimStart_append hs hne, trimEnd_append hne hs.2]

theorem trimStart_trimEnd (s : List Char) : trimStart (trimEnd s) = trim s := by
  have hblank : isBlankText (s.takeWhile isBlank) = true := List.all_takeWhile
  have hs : s.takeWhile isBlank ++ trimStart s = s := List.takeWhile_append_dropWhile
  cases hstart : trimStart s with
  | nil =>
      rw [hstart, List.append_nil] at hs
      have hempty : trimEnd s = [] := by
        rw [← List.nil_append s, ← hs, trimEnd_append_of_blank hblank]
        rfl
      rw [trim, hstart, hempty]
      rfl
  | cons c rest =>
      have hc := isBlank_of_trimStart_eq_cons hstart
      rw [hstart] at hs
      have hend := trimEnd_append_cons hc (s.takeWhile isBlank) rest
      rw [hs] at hend
      rw [trim, hstart, hend, trimStart_append_of_blank hblank, trimEnd_cons hc, trimStart,
        List.dropWhile_cons_of_neg (by simp [hc])]

theorem isSuffix_trim {s ending : List Char} (hne : ending ≠ []) (h : IsTrimmed ending)
    (hs : ending <:+ s) : ending <:+ trim s := by
  obtain ⟨before, rfl⟩ := hs
  have hstart : trimStart (before ++ ending) = trimStart before ++ ending := by
    rw [trimStart, List.dropWhile_append, trimStart]
    split
    · rename_i hbefore
      rw [dropWhile_eq_self h.1, List.isEmpty_iff.mp hbefore, List.nil_append]
    · rfl
  have hend : trimEnd (trimStart before ++ ending) = trimStart before ++ ending := by
    apply dropEndWhile_eq_self
    rw [getLast?_append_right hne]
    exact h.2
  rw [trim, hstart, hend]
  exact List.suffix_append _ _

theorem exists_trimStart_eq_cons {s : List Char} (h : isBlankText s = false) :
    ∃ c rest, trimStart s = c :: rest ∧ isBlank c = false := by
  cases hstart : trimStart s with
  | nil =>
      have hblank := List.dropWhile_eq_nil_iff.mp hstart
      rw [isBlankText, List.all_eq_true.mpr hblank] at h
      cases h
  | cons c rest => exact ⟨c, rest, rfl, isBlank_of_trimStart_eq_cons hstart⟩

theorem trimEnd_append_trimStart {s : List Char} (h : isBlankText s = false) (before : List Char) :
    trimEnd (before ++ trimStart s) = before ++ trim s := by
  obtain ⟨c, rest, hstart, hc⟩ := exists_trimStart_eq_cons h
  rw [trim, hstart, trimEnd_append_cons hc, trimEnd_cons hc]

theorem trim_ne_nil {s : List Char} (h : isBlankText s = false) : trim s ≠ [] := by
  obtain ⟨c, rest, hstart, hc⟩ := exists_trimStart_eq_cons h
  rw [trim, hstart, trimEnd_cons hc]
  exact List.cons_ne_nil _ _

theorem trim_eq_nil_iff : trim s = [] ↔ isBlankText s = true := by
  constructor
  · intro h
    rw [← Bool.not_eq_false]
    exact fun hvisible => trim_ne_nil hvisible h
  · intro h
    rw [trim, trimStart_eq_nil h]
    rfl

theorem exists_trimEnd_append (s : List Char) :
    ∃ blanks, isBlankText blanks = true ∧ trimEnd s ++ blanks = s :=
  ⟨s.rtakeWhile isBlank, List.all_eq_true.mpr fun _ hc => List.mem_rtakeWhile_imp hc,
    List.rdropWhile_append_rtakeWhile⟩

theorem trimStart_append_of_not_blank {s : List Char} (h : isBlankText s = false) (t : List Char) :
    trimStart (s ++ t) = trimStart s ++ t := by
  have hne : ¬(s.dropWhile isBlank).isEmpty = true := by
    rw [List.isEmpty_iff, List.dropWhile_eq_nil_iff, ← List.all_eq_true]
    exact Bool.eq_false_iff.mp h
  rw [trimStart, List.dropWhile_append, if_neg hne, trimStart]

theorem isPrefix_trimEnd_iff {s t : List Char} (hs : ∀ c ∈ s.getLast?, isBlank c = false) :
    s <+: trimEnd t ↔ s <+: t := by
  refine ⟨fun h => h.trans (dropEndWhile_isPrefix _ t), ?_⟩
  rintro ⟨rest, rfl⟩
  by_cases hne : s = []
  · rw [hne]
    exact List.nil_prefix
  · rw [trimEnd_append hne hs]
    exact List.prefix_append s _

theorem trimStart_isPrefix_trim_iff {start s t : List Char} (hstart : isBlankText start = false)
    (hne : s ≠ []) (hs : ∀ c ∈ s.getLast?, isBlank c = false) :
    trimStart (start ++ s) <+: trim (start ++ t) ↔ s <+: t := by
  rw [trim, trimStart_append_of_not_blank hstart, trimStart_append_of_not_blank hstart,
    isPrefix_trimEnd_iff (by rw [getLast?_append_right hne]; exact hs), List.prefix_append_right_inj]

end NamelistCatalog.Text

namespace NamelistCatalog.SourceVersion

/-- No blank stands at either end of the label. -/
def IsTrimmed (v : SourceVersion) : Prop := Text.IsTrimmed v.text.toList

instance (v : SourceVersion) : Decidable v.IsTrimmed := inferInstanceAs (Decidable (Text.IsTrimmed _))

theorem toList_ofString (s : String) : (ofString s).text.toList = Text.trim s.toList := by
  simp [ofString]

theorem isTrimmed_ofString (s : String) : (ofString s).IsTrimmed := by
  rw [IsTrimmed, toList_ofString]
  exact Text.isTrimmed_trim s.toList

theorem ofString_text_eq_iff {v : SourceVersion} : ofString v.text = v ↔ v.IsTrimmed := by
  rw [IsTrimmed, ← Text.trim_eq_self_iff, ← toList_ofString, String.toList_inj, text_inj]

end NamelistCatalog.SourceVersion
