import NamelistCatalog.Proofs.Text.Trim

namespace NamelistCatalog.Text

variable {α : Type}

theorem joinWith_cons {sep : List α} (part : List α) {parts : List (List α)} (hne : parts ≠ []) :
    joinWith sep (part :: parts) = part ++ sep ++ joinWith sep parts := by
  cases parts with
  | nil => cases hne rfl
  | cons next rest => rfl

theorem isPrefix_joinWith (sep part : List α) (parts : List (List α)) :
    part <+: joinWith sep (part :: parts) := by
  by_cases hne : parts = []
  · rw [hne]
    exact List.prefix_rfl
  · rw [joinWith_cons part hne, List.append_assoc]
    exact List.prefix_append part _

theorem joinWith_append (sep : List α) (front : List (List α)) {parts : List (List α)}
    (hne : parts ≠ []) :
    joinWith sep (front ++ parts) = front.flatMap (· ++ sep) ++ joinWith sep parts := by
  induction front with
  | nil => rfl
  | cons part front ih =>
      rw [List.cons_append, joinWith_cons part (by simp [hne]), ih, List.flatMap_cons, List.append_assoc,
        List.append_assoc, List.append_assoc]

theorem getLast?_joinWith_concat {sep : List α} (front : List (List α)) {last : List α}
    (hne : last ≠ []) : (joinWith sep (front ++ [last])).getLast? = last.getLast? := by
  rw [joinWith_append sep front (by simp)]
  exact getLast?_append_right hne

theorem joinWith_ne_nil {sep : List α} {parts : List (List α)} (hne : parts ≠ [])
    (h : ∀ part ∈ parts, part ≠ []) : joinWith sep parts ≠ [] := by
  obtain ⟨part, rest, rfl⟩ := List.exists_cons_of_ne_nil hne
  exact List.IsPrefix.ne_nil (isPrefix_joinWith sep part rest) (h part List.mem_cons_self)

theorem mem_joinWith {sep : List α} {parts : List (List α)} {c : α}
    (h : c ∈ joinWith sep parts) : c ∈ sep ∨ ∃ part ∈ parts, c ∈ part := by
  induction parts with
  | nil => cases h
  | cons first more ih =>
      cases more with
      | nil => exact .inr ⟨first, List.mem_singleton_self first, h⟩
      | cons second rest =>
          rw [joinWith, List.mem_append, List.mem_append] at h
          rcases h with (h | h) | h
          · exact .inr ⟨first, List.mem_cons_self, h⟩
          · exact .inl h
          · refine (ih h).imp_right ?_
            rintro ⟨part, hpart, hc⟩
            exact ⟨part, List.mem_cons_of_mem _ hpart, hc⟩

end NamelistCatalog.Text
