import NamelistCatalog.Proofs.Text.Trim
import NamelistCatalog.Text.Lines

namespace NamelistCatalog.Text

/-- The lines one after the other, each with a line feed after it. -/
def unlines (lines : List (List Char)) : List Char := lines.flatMap (· ++ ['\n'])

section Fields

variable {α : Type}

theorem fields_append_cons {p : α → Bool} {c : α} (hc : p c = true) {s : List α}
    (hs : ∀ d ∈ s, p d = false) (rest : List α) :
    fields p (s ++ c :: rest) = s :: fields p rest := by
  induction s with
  | nil => rw [List.nil_append, fields, cutAt_cons, if_pos hc, fields]
  | cons d s ih =>
      rw [List.forall_mem_cons] at hs
      have hrest := List.cons.inj (ih hs.2)
      rw [List.cons_append, fields, cutAt_cons, if_neg (by simp [hs.1]), hrest.1, hrest.2]

theorem getLast?_fields_append_cons {p : α → Bool} {c : α} (hc : p c = true)
    (s rest : List α) :
    (fields p (s ++ c :: rest)).getLast? = (fields p rest).getLast? := by
  have hne : fields p rest ≠ [] := by simp [fields]
  have hcuts : (cutAt p (s ++ c :: rest)).2.getLast? = (fields p rest).getLast? ∧
      (cutAt p (s ++ c :: rest)).2 ≠ [] := by
    induction s with
    | nil =>
        rw [List.nil_append, cutAt_cons, if_pos hc]
        exact ⟨rfl, hne⟩
    | cons d s ih =>
        rw [List.cons_append, cutAt_cons]
        split
        · refine ⟨?_, by simp⟩
          dsimp only
          rw [List.getLast?_cons_of_ne_nil ih.2]
          exact ih.1
        · exact ih
  rw [fields, List.getLast?_cons_of_ne_nil hcuts.2, hcuts.1]

theorem eq_false_of_mem_fields {p : α → Bool} {s part : List α} (hpart : part ∈ fields p s)
    {c : α} (hc : c ∈ part) : p c = false := by
  induction s generalizing part with
  | nil =>
      rw [fields, cutAt_nil, List.mem_singleton] at hpart
      rw [hpart] at hc
      cases hc
  | cons d rest ih =>
      rw [fields, cutAt_cons] at hpart
      split at hpart
      · rcases List.mem_cons.mp hpart with rfl | hpart
        · cases hc
        · exact ih hpart hc
      · rename_i hd
        rcases List.mem_cons.mp hpart with rfl | hpart
        · rcases List.mem_cons.mp hc with rfl | hc
          · exact Bool.eq_false_iff.mpr hd
          · exact ih List.mem_cons_self hc
        · exact ih (List.mem_cons_of_mem _ hpart) hc

theorem fields_eq_singleton {p : α → Bool} {s : List α} (hs : ∀ d ∈ s, p d = false) :
    fields p s = [s] := by
  induction s with
  | nil => rfl
  | cons d s ih =>
      rw [List.forall_mem_cons] at hs
      have hrest := List.cons.inj (ih hs.2)
      rw [fields, cutAt_cons, if_neg (by simp [hs.1]), hrest.1, hrest.2]

theorem fields_joinWith [BEq α] [LawfulBEq α] {c : α} {parts : List (List α)} (hne : parts ≠ [])
    (hparts : ∀ part ∈ parts, c ∉ part) : fields (· == c) (joinWith [c] parts) = parts := by
  induction parts with
  | nil => cases hne rfl
  | cons part rest ih =>
      rw [List.forall_mem_cons] at hparts
      have hplain : ∀ d ∈ part, (d == c) = false := by
        intro d hd
        rw [beq_eq_false_iff_ne]
        rintro rfl
        exact hparts.1 hd
      cases rest with
      | nil => exact fields_eq_singleton hplain
      | cons next more =>
          rw [joinWith, List.append_assoc, List.singleton_append,
            fields_append_cons (p := (· == c)) (beq_self_eq_true c) hplain, ih (by simp) hparts.2]

end Fields

theorem dropReturn_eq_self {line : List Char} (h : line.getLast? ≠ some '\r') :
    dropReturn line = line := if_neg h

theorem dropReturn_append_cons {c : Char} (hc : c ≠ '\r') (s t : List Char) :
    dropReturn (s ++ c :: t) = s ++ c :: dropReturn t := by
  unfold dropReturn
  cases t with
  | nil => simp [hc]
  | cons d rest =>
      rw [getLast?_append_right (by simp), getLast?_cons_right (by simp)]
      split
      · rw [List.dropLast_append_of_ne_nil (by simp), List.dropLast_cons_of_ne_nil (by simp)]
      · rfl

theorem dropReturn_isPrefix (line : List Char) : dropReturn line <+: line := by
  unfold dropReturn
  split
  · exact List.dropLast_prefix line
  · exact List.prefix_rfl

theorem trimEnd_dropReturn (line : List Char) : trimEnd (dropReturn line) = trimEnd line := by
  unfold dropReturn
  split
  · rename_i h
    obtain ⟨before, rfl⟩ := List.getLast?_eq_some_iff.mp h
    rw [List.dropLast_concat, trimEnd_concat (by decide)]
  · rfl

theorem lines_unlines_eq_map {ls : List (List Char)} (hfeed : ∀ line ∈ ls, '\n' ∉ line) :
    lines (unlines ls) = ls.map dropReturn := by
  induction ls with
  | nil => rfl
  | cons line rest ih =>
      rw [List.forall_mem_cons] at hfeed
      have hplain : ∀ d ∈ line, (d == '\n') = false := by
        intro d hd
        rw [beq_eq_false_iff_ne]
        rintro rfl
        exact hfeed.1 hd
      have hrest := ih hfeed.2
      rw [unlines, List.flatMap_cons, List.append_assoc, List.singleton_append, lines,
        fields_append_cons (by decide) hplain]
      rw [lines, unlines, fields] at hrest
      rw [fields, linesOfParts, hrest, List.map_cons]
      simp

theorem lines_unlines {ls : List (List Char)} (hfeed : ∀ line ∈ ls, '\n' ∉ line)
    (hreturn : ∀ line ∈ ls, line.getLast? ≠ some '\r') : lines (unlines ls) = ls := by
  have hsame : ls.map dropReturn = ls.map id :=
    List.map_congr_left fun line hline => dropReturn_eq_self (hreturn line hline)
  rw [lines_unlines_eq_map hfeed, hsame, List.map_id]

end NamelistCatalog.Text
