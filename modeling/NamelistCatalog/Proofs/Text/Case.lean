import Mathlib.Logic.Basic
import NamelistCatalog.Text.Case

namespace NamelistCatalog.Text

/-- What case rules meet on one side of a place: nothing, or a character that has or has no case. -/
def meets? (s : List Char) : Option Bool := (s.find? fun c => !isCaseIgnorable c).map isCased

/-- The lower case of a text that stands between two others; `before` runs backwards. -/
def lowerBetween (before : List Char) : List Char → List Char → List Char
  | [], _ => []
  | c :: rest, after =>
      (if c == '\u03a3' then [if endsWord before (rest ++ after) then '\u03c2' else '\u03c3']
        else lowerChar c) ++
        lowerBetween (c :: before) rest after

/-- Whether what stands on both sides of a capital sigma tells if the sigma ends a word, whatever
stands further away; `before` runs backwards. -/
def settles (before after : List Char) : Bool :=
  meets? before == some false || meets? after == some true ||
    ((meets? before).isSome && (meets? after).isSome)

/-- A text that tells of each of its capital sigmas if it ends a word. -/
def SettlesSigmas (s : List Char) : Prop :=
  ∀ u v, s = u ++ '\u03a3' :: v → settles u.reverse v = true

variable {before before' after after' s t u v : List Char} {c : Char}

theorem meetsCased_eq (s : List Char) : meetsCased s = (meets? s == some true) := by
  rw [meetsCased, meets?]
  induction s with
  | nil => rfl
  | cons c rest ih =>
      cases h : isCaseIgnorable c with
      | true => simpa [List.dropWhile_cons, List.find?_cons, h] using ih
      | false => simp [h]

theorem meets?_append (s t : List Char) : meets? (s ++ t) = (meets? s).or (meets? t) := by
  rw [meets?, meets?, meets?, List.find?_append, Option.map_or]

theorem meets?_sigma (s : List Char) : meets? ('\u03a3' :: s) = some true := by
  have hmarker : isCaseIgnorable '\u03a3' = false := by decide +kernel
  have hcased : isCased '\u03a3' = true := by decide +kernel
  rw [meets?, List.find?_cons_of_pos (by simp [hmarker]), Option.map_some, hcased]

theorem endsWord_eq (before after : List Char) :
    endsWord before after = (meets? before == some true && !(meets? after == some true)) := by
  rw [endsWord, meetsCased_eq, meetsCased_eq]

theorem lowerAfter_eq (before s : List Char) : lowerAfter before s = lowerBetween before s [] := by
  induction s generalizing before with
  | nil => rfl
  | cons c rest ih => rw [lowerAfter, lowerBetween, ih, List.append_nil]

theorem lower_eq (s : List Char) : lower s = lowerBetween [] s [] := lowerAfter_eq [] s

theorem lowerBetween_append (before s t after : List Char) :
    lowerBetween before (s ++ t) after =
      lowerBetween before s (t ++ after) ++ lowerBetween (s.reverse ++ before) t after := by
  induction s generalizing before with
  | nil => rfl
  | cons c rest ih =>
      rw [List.cons_append, lowerBetween, lowerBetween, ih, List.append_assoc, List.append_assoc,
        List.reverse_cons, List.append_assoc, List.singleton_append]

theorem lowerBetween_congr
    (h : ∀ u v, s = u ++ '\u03a3' :: v →
      endsWord (u.reverse ++ before) (v ++ after) = endsWord (u.reverse ++ before') (v ++ after')) :
    lowerBetween before s after = lowerBetween before' s after' := by
  induction s generalizing before before' with
  | nil => rfl
  | cons c rest ih =>
      have hrest : lowerBetween (c :: before) rest after = lowerBetween (c :: before') rest after' := by
        apply ih
        intro u v hrest
        have hplace := h (c :: u) v (by rw [hrest]; rfl)
        simpa using hplace
      rw [lowerBetween, lowerBetween, hrest]
      congr 1
      split
      · rename_i hc
        rw [beq_iff_eq] at hc
        subst hc
        have hplace : endsWord before (rest ++ after) = endsWord before' (rest ++ after') :=
          h [] rest rfl
        rw [hplace]
      · rfl

theorem meets?_append_cons (hc : meets? [c] = some false) (s t : List Char) :
    (meets? (s ++ c :: t) == some true) = (meets? s == some true) := by
  rw [← List.singleton_append, meets?_append, meets?_append, hc, Option.some_or]
  cases meets? s <;> rfl

/-- A character without case parts a text into two that are lower-cased on their own. -/
theorem lower_append_cons (hc : meets? [c] = some false) (s t : List Char) :
    lower (s ++ c :: t) = lower s ++ (lowerChar c ++ lower t) := by
  have hsigma : (c == '\u03a3') = false := by
    rw [beq_eq_false_iff_ne]
    rintro rfl
    rw [meets?_sigma] at hc
    cases hc
  have hleft : lowerBetween [] s (c :: t) = lower s := by
    rw [lower_eq]
    apply lowerBetween_congr
    intro u v _
    rw [endsWord_eq, endsWord_eq, meets?_append_cons hc, List.append_nil, List.append_nil]
  have hright : lowerBetween (c :: s.reverse) t [] = lower t := by
    rw [lower_eq]
    apply lowerBetween_congr
    intro u v _
    rw [endsWord_eq, endsWord_eq, meets?_append_cons hc, List.append_nil, List.append_nil]
  rw [lower_eq, lowerBetween_append, List.append_nil, List.append_nil, hleft, lowerBetween, hsigma,
    hright]
  rfl

theorem meets?_newline : meets? ['\n'] = some false := by decide +kernel

theorem lower_append_newline (s t : List Char) : lower (s ++ '\n' :: t) = lower s ++ '\n' :: lower t :=
  lower_append_cons meets?_newline s t

theorem ofNat_ne_newline {n : Nat} (h : 10 < n) : Char.ofNat n ≠ '\n' := by
  intro hnewline
  have htoNat := congrArg Char.toNat hnewline
  by_cases hvalid : n.isValidChar
  · rw [Char.ofNat, dif_pos hvalid] at htoNat
    have hten : n = 10 := htoNat
    omega
  · rw [Char.ofNat, dif_neg hvalid] at htoNat
    cases htoNat

theorem newline_not_mem_lowerChar (h : c ≠ '\n') : '\n' ∉ lowerChar c := by
  have hascii : ∀ n < 128, (Char.ofNat n).toLower = '\n' → n = 10 := by decide
  have htargets : ∀ r ∈ lowerRuns, 10 < r.2.2.2 := by decide +kernel
  unfold lowerChar
  split
  · rename_i hsmall
    rw [List.mem_singleton]
    intro hnewline
    have hten := hascii c.toNat hsmall (by rw [Char.ofNat_toNat, ← hnewline])
    exact h (by rw [← Char.ofNat_toNat c, hten])
  · split
    · decide
    · rw [List.mem_singleton, simpleLower]
      split
      · rename_i first last step target hfind
        have htarget := htargets _ (List.mem_of_find?_eq_some hfind)
        split
        · exact (ofNat_ne_newline (Nat.lt_add_right _ htarget)).symm
        · exact h.symm
      · exact h.symm

theorem newline_not_mem_lower (h : '\n' ∉ s) : '\n' ∉ lower s := by
  have hbetween : ∀ before, '\n' ∉ lowerAfter before s := by
    induction s with
    | nil => simp [lowerAfter]
    | cons c rest ih =>
        rw [List.mem_cons, not_or] at h
        intro before
        rw [lowerAfter, List.mem_append, not_or]
        refine ⟨?_, ih h.2 _⟩
        split
        · split <;> decide
        · exact newline_not_mem_lowerChar (Ne.symm h.1)
  exact hbetween []

theorem endsWord_of_settles (h : settles u v = true) (before after : List Char) :
    endsWord (u ++ before) (v ++ after) = endsWord u v := by
  rw [endsWord_eq, endsWord_eq, meets?_append, meets?_append]
  unfold settles at h
  rcases hu : meets? u with _ | _ | _ <;> rcases hv : meets? v with _ | _ | _ <;>
    simp [hu, hv] at h ⊢

theorem SettlesSigmas.lowerBetween_eq (h : SettlesSigmas s) (before after : List Char) :
    lowerBetween before s after = lower s := by
  rw [lower_eq]
  apply lowerBetween_congr
  intro u v huv
  rw [endsWord_of_settles (h u v huv), List.append_nil, List.append_nil]

theorem SettlesSigmas.lower_isInfix (h : SettlesSigmas s) (hpart : s <:+: t) : lower s <:+: lower t := by
  obtain ⟨a, b, rfl⟩ := hpart
  refine ⟨lowerBetween [] a (s ++ b), lowerBetween (s.reverse ++ a.reverse) b [], ?_⟩
  rw [lower_eq (a ++ s ++ b), List.append_assoc a, lowerBetween_append, lowerBetween_append,
    h.lowerBetween_eq]
  simp

theorem sigma_not_mem (h : meets? s = none) : '\u03a3' ∉ s := by
  have hmarker : isCaseIgnorable '\u03a3' = false := by decide +kernel
  rw [meets?, Option.map_eq_none_iff, List.find?_eq_none] at h
  intro hmem
  exact h _ hmem (by simp [hmarker])

theorem lowerBetween_of_not_mem (h : '\u03a3' ∉ s) (before before' after after' : List Char) :
    lowerBetween before s after = lowerBetween before' s after' := by
  apply lowerBetween_congr
  rintro u v rfl
  simp at h

theorem lowerBetween_sigma (before s after after' : List Char) :
    lowerBetween before s ('\u03a3' :: after) = lowerBetween before s ('\u03a3' :: after') := by
  apply lowerBetween_congr
  intro u v _
  rw [endsWord_eq, endsWord_eq, meets?_append v, meets?_append v, meets?_sigma, meets?_sigma]

theorem sigma_lowerBetween (before before' s after : List Char) :
    lowerBetween ('\u03a3' :: before) s after = lowerBetween ('\u03a3' :: before') s after := by
  apply lowerBetween_congr
  intro u v _
  rw [endsWord_eq, endsWord_eq, meets?_append u.reverse, meets?_append u.reverse, meets?_sigma,
    meets?_sigma]

theorem lowerBetween_split (before u v after : List Char) :
    lowerBetween before (u ++ '\u03a3' :: v) after =
      lowerBetween before u ('\u03a3' :: (v ++ after)) ++
        ((if endsWord (u.reverse ++ before) (v ++ after) then '\u03c2' else '\u03c3') ::
          lowerBetween ('\u03a3' :: (u.reverse ++ before)) v after) := by
  rw [lowerBetween_append, lowerBetween]
  rfl

/-- Where the surroundings change one capital sigma and nothing else, its old lower case occurs less
often. -/
theorem exists_count_lowerBetween_lt
    (hfront : lowerBetween before u ('\u03a3' :: (v ++ after)) =
      lowerBetween before' u ('\u03a3' :: (v ++ after')))
    (hbehind : lowerBetween ('\u03a3' :: (u.reverse ++ before)) v after =
      lowerBetween ('\u03a3' :: (u.reverse ++ before')) v after')
    (hplace : endsWord (u.reverse ++ before) (v ++ after) ≠
      endsWord (u.reverse ++ before') (v ++ after')) :
    ∃ c ∈ ['\u03c2', '\u03c3'], (lowerBetween before (u ++ '\u03a3' :: v) after).count c <
      (lowerBetween before' (u ++ '\u03a3' :: v) after').count c := by
  rw [lowerBetween_split, lowerBetween_split, hfront, hbehind]
  cases hafter : endsWord (u.reverse ++ before') (v ++ after') with
  | true =>
      rw [hafter, ne_eq, Bool.not_eq_true] at hplace
      refine ⟨'\u03c2', by decide, ?_⟩
      rw [hplace]
      simp [List.count_append]
  | false =>
      rw [hafter, ne_eq, Bool.not_eq_false] at hplace
      refine ⟨'\u03c3', by decide, ?_⟩
      rw [hplace]
      simp [List.count_append]

theorem lower_concat_letter (s : List Char) : lower (s ++ ['A']) = lowerBetween [] s ['A'] ++ ['a'] := by
  rw [lower_eq, lowerBetween_append]
  rfl

theorem lower_cons_letter (s : List Char) : lower ('A' :: s) = 'a' :: lowerBetween ['A'] s [] := by
  rw [lower_eq]
  rfl

theorem not_settles_iff :
    settles u v = false ↔ meets? v = none ∧ meets? u = some true ∨
      meets? u = none ∧ meets? v ≠ some true := by
  unfold settles
  rcases hu : meets? u with _ | _ | _ <;> rcases hv : meets? v with _ | _ | _ <;> simp

theorem exists_count_lt (h : ¬SettlesSigmas s) :
    ∃ t, s <:+: t ∧ ∃ c, c ≠ '\n' ∧ (lower t).count c < (lower s).count c := by
  simp only [SettlesSigmas, not_forall, Bool.not_eq_true] at h
  obtain ⟨u, v, rfl, h⟩ := h
  have hletter : meets? ['A'] = some true := by decide +kernel
  have hsigmas : ∀ c ∈ ['\u03c2', '\u03c3'], c ≠ '\n' ∧ 'a' ≠ c := by simp
  rcases not_settles_iff.mp h with ⟨hv, hu⟩ | ⟨hu, hv⟩
  · -- A letter behind the text makes the sigma that ends a word one that does not.
    have hplace : endsWord (u.reverse ++ []) (v ++ ['A']) ≠ endsWord (u.reverse ++ []) (v ++ []) := by
      rw [endsWord_eq, endsWord_eq, meets?_append v, List.append_nil, List.append_nil, hu, hv, hletter]
      decide
    obtain ⟨c, hc, hfewer⟩ := exists_count_lowerBetween_lt
      (lowerBetween_sigma [] u (v ++ ['A']) (v ++ []))
      (lowerBetween_of_not_mem (sigma_not_mem hv) _ _ ['A'] []) hplace
    obtain ⟨hnewline, ha⟩ := hsigmas c hc
    refine ⟨u ++ '\u03a3' :: v ++ ['A'], ⟨[], ['A'], rfl⟩, c, hnewline, ?_⟩
    rw [lower_concat_letter, lower_eq, List.count_append, List.count_singleton, if_neg (by simpa using ha)]
    exact hfewer
  · -- A letter in front of the text makes the sigma that begins a word one that ends it.
    have hplace : endsWord (u.reverse ++ ['A']) (v ++ []) ≠ endsWord (u.reverse ++ []) (v ++ []) := by
      rw [endsWord_eq, endsWord_eq, meets?_append u.reverse, List.append_nil, List.append_nil, hu,
        hletter, beq_eq_false_iff_ne.mpr hv]
      decide
    have hsigma : '\u03a3' ∉ u := fun hmem => sigma_not_mem hu (List.mem_reverse.mpr hmem)
    obtain ⟨c, hc, hfewer⟩ := exists_count_lowerBetween_lt
      (lowerBetween_of_not_mem hsigma ['A'] [] _ _)
      (sigma_lowerBetween (u.reverse ++ ['A']) (u.reverse ++ []) v []) hplace
    obtain ⟨hnewline, ha⟩ := hsigmas c hc
    refine ⟨'A' :: (u ++ '\u03a3' :: v), ⟨['A'], [], List.append_nil _⟩, c, hnewline, ?_⟩
    rw [lower_cons_letter, lower_eq, List.count_cons_of_ne ha]
    exact hfewer

theorem apply_toLower {α : Type} {f : Char → α}
    (h : ∀ n < 26, f (Char.ofNat (n + 97)) = f (Char.ofNat (n + 65))) (c : Char) :
    f c.toLower = f c := by
  cases hupper : c.isUpper with
  | true =>
      obtain ⟨hlow, hhigh⟩ : 'A'.val ≤ c.val ∧ c.val ≤ 'Z'.val := of_decide_eq_true hupper
      have hrange : 65 ≤ c.toNat ∧ c.toNat ≤ 90 :=
        ⟨UInt32.le_iff_toNat_le.mp hlow, UInt32.le_iff_toNat_le.mp hhigh⟩
      have hletters : ∀ n < 26, (Char.ofNat (n + 65)).toLower = Char.ofNat (n + 97) := by decide
      have hc : c = Char.ofNat (c.toNat - 65 + 65) := by
        rw [Nat.sub_add_cancel hrange.1, Char.ofNat_toNat]
      have hletter : c.toNat - 65 < 26 := by omega
      rw [hc, hletters _ hletter, h _ hletter]
  | false =>
      have hsame : c.toLower = c := by
        refine dif_neg fun hrange => ?_
        have htrue : c.isUpper = true := decide_eq_true hrange
        rw [hupper] at htrue
        cases htrue
      rw [hsame]

theorem asciiLower_asciiLower (s : List Char) : asciiLower (asciiLower s) = asciiLower s := by
  rw [asciiLower, asciiLower, List.map_map]
  exact List.map_congr_left fun c _ => apply_toLower (f := Char.toLower) (by decide) c

end NamelistCatalog.Text
