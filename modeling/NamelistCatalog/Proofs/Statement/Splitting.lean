import NamelistCatalog.Proofs.Statement.Nesting

namespace NamelistCatalog

namespace Nesting

variable {sep : Char} {n : Nesting} {s t : List Char}

theorem cutFrom_cons_of_isTop {c : Char} (hsep : isMarker sep = false) (hn : n.isTop = true)
    (hc : c = sep) :
    cutFrom sep n (c :: t) =
      ([], (cutFrom sep (n.next c) t).1 :: (cutFrom sep (n.next c) t).2) := by
  subst hc
  simp [cutFrom, hn, hsep]

theorem cutFrom_append (h : (cutFrom sep n s).2 = []) (t : List Char) :
    cutFrom sep n (s ++ t) =
      (s ++ (cutFrom sep (s.foldl next n) t).1, (cutFrom sep (s.foldl next n) t).2) := by
  induction s generalizing n with
  | nil => rfl
  | cons c rest ih =>
      rw [cutFrom] at h
      split at h
      · cases h
      · rename_i hcut
        rw [List.cons_append, cutFrom, if_neg hcut, ih h, List.foldl_cons, List.cons_append]

theorem length_cutFrom_append (n : Nesting) (s t : List Char) :
    (cutFrom sep n (s ++ t)).2.length =
      (cutFrom sep n s).2.length + (cutFrom sep (s.foldl next n) t).2.length := by
  induction s generalizing n with
  | nil => simp [cutFrom]
  | cons c rest ih =>
      rw [List.cons_append, cutFrom, cutFrom, List.foldl_cons]
      split
      · rw [List.length_cons, List.length_cons, ih, Nat.add_right_comm]
      · exact ih _

theorem cuts_eq_nil_of_append (h : (cutFrom sep n (s ++ t)).2 = []) : (cutFrom sep n s).2 = [] := by
  have hlength : (cutFrom sep n (s ++ t)).2.length =
      (cutFrom sep n s).2.length + (cutFrom sep (s.foldl next n) t).2.length :=
    length_cutFrom_append n s t
  rw [h, List.length_nil] at hlength
  exact List.length_eq_zero_iff.mp (by omega)

/-- The text is cut nowhere, and what stands behind it is outside quotes and brackets again. -/
structure Uncut (sep : Char) (s : List Char) : Prop where
  whole : (cutFrom sep {} s).2 = []
  closed : s.foldl next {} = {}

theorem uncut_nil : Uncut sep [] := ⟨rfl, rfl⟩

theorem Uncut.append (hs : Uncut sep s) (ht : Uncut sep t) : Uncut sep (s ++ t) := by
  constructor
  · rw [cutFrom_append hs.whole, hs.closed]
    exact ht.whole
  · rw [List.foldl_append, hs.closed, ht.closed]

def markers : List Char := ['\x27', '\x22', '(', '[', ')', ']']

theorem isMarker_iff {c : Char} : isMarker c = true ↔ c ∈ markers := by
  simp [isMarker, isQuote, isOpening, isClosing, markers, or_assoc]

theorem isMarker_of_any {p : Char → Bool} {c : Char} (hc : p c = true) (hp : markers.any p = false) :
    isMarker c = false := by
  rw [Bool.eq_false_iff]
  intro hmarker
  have hany := List.any_eq_true.mpr ⟨c, isMarker_iff.mp hmarker, hc⟩
  rw [hp] at hany
  cases hany

theorem next_top_of_not_isMarker {c : Char} (h : isMarker c = false) : next {} c = {} := by
  simp only [isMarker, Bool.or_eq_false_iff] at h
  simp [next, nextQuote, h.1.1, h.1.2, h.2]

theorem cutFrom_append_sep (h : s.foldl next n = {}) (hsep : isMarker sep = false) :
    cutFrom sep n (s ++ sep :: t) =
      ((cutFrom sep n s).1, (cutFrom sep n s).2 ++ splitTopLevel sep t) := by
  induction s generalizing n with
  | nil =>
      obtain rfl : n = {} := h
      rw [List.nil_append, cutFrom_cons_of_isTop hsep rfl rfl, next_top_of_not_isMarker hsep]
      rfl
  | cons c rest ih =>
      rw [List.cons_append, cutFrom, cutFrom, ih h]
      split <;> rfl

theorem uncut_singleton {c : Char} (hmarker : isMarker c = false) (hc : c ≠ sep) :
    Uncut sep [c] := by
  constructor
  · simp [cutFrom, hc]
  · exact next_top_of_not_isMarker hmarker

theorem uncut_plain (h : ∀ c ∈ s, isMarker c = false ∧ c ≠ sep) : Uncut sep s := by
  induction s with
  | nil => exact uncut_nil
  | cons c rest ih =>
      rw [List.forall_mem_cons] at h
      exact (uncut_singleton h.1.1 h.1.2).append (ih h.2)

theorem uncut_of_commas (hnested : IsNested s) (hcommas : Scope.commas {} s = 0) : Uncut ',' s := by
  have hlength : (cutFrom ',' {} s).2.length = Scope.commas {} s := Scope.length_cutFrom hnested
  constructor
  · rw [hcommas] at hlength
    exact List.length_eq_zero_iff.mp hlength
  · exact Scope.foldl_next_nesting hnested 0

theorem uncut_parenthesized (hnested : IsNested s) (hsep : isMarker sep = false) :
    Uncut sep ('(' :: (s ++ [')'])) := by
  have hwhole : (cutFrom sep ⟨none, 1⟩ s).2 = [] := Scope.cutFrom_within hnested 0
  have hclosed : s.foldl next ⟨none, 1⟩ = ⟨none, 1⟩ := Scope.foldl_next_nesting hnested 1
  have hopen : next {} '(' = ⟨none, 1⟩ := rfl
  have hne : '(' ≠ sep := by
    rintro rfl
    cases hsep
  constructor
  · simp [cutFrom, hopen, hne, cutFrom_append hwhole, hclosed, isTop]
  · rw [List.foldl_cons, List.foldl_append, hopen, hclosed]
    rfl

end Nesting

variable {sep : Char} {s t : List Char}

theorem splitTopLevel_eq_singleton (h : (Nesting.cutFrom sep {} s).2 = []) :
    splitTopLevel sep s = [s] := by
  have hwhole := Nesting.cutFrom_append h []
  rw [List.append_nil] at hwhole
  rw [splitTopLevel, hwhole]
  simp [Nesting.cutFrom]

/-- A separator outside quotes and brackets parts a text into two that are split on their own. -/
theorem splitTopLevel_append_sep (h : s.foldl Nesting.next {} = {})
    (hsep : Nesting.isMarker sep = false) (t : List Char) :
    splitTopLevel sep (s ++ sep :: t) = splitTopLevel sep s ++ splitTopLevel sep t := by
  rw [splitTopLevel, Nesting.cutFrom_append_sep h hsep]
  rfl

theorem splitTopLevel_append_cons (h : Nesting.Uncut sep s) (hsep : Nesting.isMarker sep = false)
    (t : List Char) : splitTopLevel sep (s ++ sep :: t) = s :: splitTopLevel sep t := by
  rw [splitTopLevel_append_sep h.closed hsep, splitTopLevel_eq_singleton h.whole,
    List.singleton_append]

theorem rankOf_eq (h : IsNested s) : rankOf s = UInt8.ofNat (min (Scope.commas {} s + 1) 255) := by
  rw [rankOf, splitTopLevel, List.length_cons, ← Scope.length_cutFrom h]
  rfl

end NamelistCatalog
