import Mathlib.Data.List.Induction
import NamelistCatalog.Proofs.Statement.Splitting

namespace NamelistCatalog

/-- What of a text stands outside quotes when no quote is left open: the text is made of characters that
quote nothing and of strings, each closed by the next mark of its kind. -/
inductive OutsideQuotes : List Char → List Char → Prop
  | nil : OutsideQuotes [] []
  | plain {c : Char} {s outside : List Char} (hc : isQuote c = false) (h : OutsideQuotes s outside) :
      OutsideQuotes (c :: s) (c :: outside)
  | string {mark : Char} {inside s outside : List Char} (hmark : isQuote mark = true)
      (hinside : mark ∉ inside) (h : OutsideQuotes s outside) :
      OutsideQuotes (mark :: (inside ++ mark :: s)) outside

/-- The depth after a character outside quotes; a closing bracket too many leaves it at zero. -/
def depthAfter (depth : Nat) (c : Char) : Nat :=
  if Nesting.isOpening c then depth + 1 else if Nesting.isClosing c then depth - 1 else depth

/-- Behind the text no quote and no bracket is open. -/
def EndsAtTop (s : List Char) : Prop := ∃ outside, OutsideQuotes s outside ∧ outside.foldl depthAfter 0 = 0

namespace Nesting

variable {s : List Char}

theorem next_none {c : Char} (hc : isQuote c = false) (depth : Nat) :
    next ⟨none, depth⟩ c = ⟨none, depthAfter depth c⟩ := by
  simp [next, nextQuote, depthAfter, hc]

theorem next_quote {mark : Char} (hmark : isQuote mark = true) (depth : Nat) :
    next ⟨none, depth⟩ mark = ⟨some mark, depth⟩ := by
  rw [isQuote, Bool.or_eq_true, beq_iff_eq, beq_iff_eq] at hmark
  rcases hmark with rfl | rfl
  · rfl
  · rfl

theorem next_closing_quote (mark : Char) (depth : Nat) : next ⟨some mark, depth⟩ mark = ⟨none, depth⟩ := by
  simp [next, nextQuote]

theorem foldl_next_quoted {mark : Char} {inside : List Char} (hinside : mark ∉ inside) (depth : Nat) :
    inside.foldl next ⟨some mark, depth⟩ = ⟨some mark, depth⟩ := by
  induction inside with
  | nil => rfl
  | cons c rest ih =>
      rw [List.mem_cons, not_or] at hinside
      have hstep : next ⟨some mark, depth⟩ c = ⟨some mark, depth⟩ := by
        simp [next, nextQuote, Ne.symm hinside.1]
      rw [List.foldl_cons, hstep, ih hinside.2]

theorem foldl_next_outside {outside : List Char} (h : OutsideQuotes s outside) (depth : Nat) :
    s.foldl next ⟨none, depth⟩ = ⟨none, outside.foldl depthAfter depth⟩ := by
  induction h generalizing depth with
  | nil => rfl
  | plain hc _ ih => rw [List.foldl_cons, List.foldl_cons, next_none hc, ih]
  | string hmark hinside _ ih =>
      rw [List.foldl_cons, next_quote hmark, List.foldl_append, foldl_next_quoted hinside,
        List.foldl_cons, next_closing_quote, ih]

theorem quote_foldl_next (n : Nesting) (s : List Char) :
    (s.foldl next n).quote = s.foldl nextQuote n.quote := by
  induction s generalizing n with
  | nil => rfl
  | cons c rest ih => exact ih (n.next c)

theorem exists_outsideQuotes (s : List Char) :
    (s.foldl nextQuote none = none → ∃ outside, OutsideQuotes s outside) ∧
      ∀ mark, s.foldl nextQuote (some mark) = none →
        ∃ inside rest outside, s = inside ++ mark :: rest ∧ mark ∉ inside ∧ OutsideQuotes rest outside := by
  -- A mark leads from outside quotes into a string and back, so both go through the text together.
  induction s with
  | nil => exact ⟨fun _ => ⟨[], .nil⟩, fun mark h => nomatch h⟩
  | cons c rest ih =>
      obtain ⟨hplain, hquoted⟩ := ih
      constructor
      · intro h
        rw [List.foldl_cons, nextQuote] at h
        split at h
        · rename_i hmark
          obtain ⟨inside, tail, outside, rfl, hinside, htail⟩ := hquoted c h
          exact ⟨outside, .string hmark hinside htail⟩
        · rename_i hmark
          obtain ⟨outside, houtside⟩ := hplain h
          exact ⟨c :: outside, .plain (Bool.eq_false_iff.mpr hmark) houtside⟩
      · intro mark h
        rw [List.foldl_cons, nextQuote] at h
        split at h
        · rename_i hsame
          obtain rfl := beq_iff_eq.mp hsame
          obtain ⟨outside, houtside⟩ := hplain h
          exact ⟨[], rest, outside, rfl, List.not_mem_nil, houtside⟩
        · rename_i hother
          obtain ⟨inside, tail, outside, rfl, hinside, htail⟩ := hquoted mark h
          refine ⟨c :: inside, tail, outside, rfl, ?_, htail⟩
          rw [List.mem_cons, not_or]
          exact ⟨fun heq => hother (beq_iff_eq.mpr heq.symm), hinside⟩

theorem foldl_next_eq_iff : s.foldl next {} = {} ↔ EndsAtTop s := by
  constructor
  · intro h
    have hquote : s.foldl nextQuote none = none := by
      rw [← quote_foldl_next {} s, h]
    obtain ⟨outside, houtside⟩ := (exists_outsideQuotes s).1 hquote
    rw [foldl_next_outside houtside] at h
    exact ⟨outside, houtside, congrArg depth h⟩
  · rintro ⟨outside, houtside, hdepth⟩
    rw [foldl_next_outside houtside, hdepth]

end Nesting

instance : DecidablePred EndsAtTop := fun _ => decidable_of_iff _ Nesting.foldl_next_eq_iff

/-- How many times the separator stands outside quotes at depth zero. -/
def topSeparators (sep : Char) (s : List Char) : Nat :=
  (List.range s.length).countP fun i => s[i]? = some sep ∧ EndsAtTop (s.take i)

theorem topSeparators_concat (sep c : Char) (s : List Char) :
    topSeparators sep (s ++ [c]) = topSeparators sep s + if c = sep ∧ EndsAtTop s then 1 else 0 := by
  rw [topSeparators, List.length_append, List.length_singleton, List.range_succ, List.countP_append]
  congr 1
  · apply List.countP_congr
    intro i hi
    rw [List.mem_range] at hi
    rw [List.getElem?_append_left hi, List.take_append_of_le_length hi.le]
  · simp [List.countP_singleton]

namespace Nesting

variable {sep : Char} {n : Nesting} {part : List Char}

theorem isTop_iff : n.isTop = true ↔ n = {} := by
  obtain ⟨quote, depth⟩ := n
  simp [isTop]

theorem length_cutFrom_singleton (hsep : isMarker sep = false) (n : Nesting) (c : Char) :
    (cutFrom sep n [c]).2.length = if c = sep ∧ n = {} then 1 else 0 := by
  by_cases hc : c = sep
  · subst hc
    by_cases hn : n = {}
    · simp [cutFrom, hsep, hn, isTop]
    · simp [cutFrom, hn, isTop_iff]
  · simp [cutFrom, hc]

theorem length_cutFrom_eq (hsep : isMarker sep = false) (s : List Char) :
    (cutFrom sep {} s).2.length = topSeparators sep s := by
  induction s using List.reverseRecOn with
  | nil => rfl
  | append_singleton s c ih =>
      rw [length_cutFrom_append, ih, topSeparators_concat, length_cutFrom_singleton hsep]
      simp only [foldl_next_eq_iff]

theorem cutFrom_of_isMarker (hsep : isMarker sep = true) (n : Nesting) (s : List Char) :
    (cutFrom sep n s).2 = [] := by
  induction s generalizing n with
  | nil => rfl
  | cons c rest ih =>
      rw [cutFrom, if_neg]
      · exact ih _
      · rw [Bool.and_eq_true, Bool.and_eq_true, beq_iff_eq, Bool.not_eq_true']
        rintro ⟨⟨-, rfl⟩, hc⟩
        rw [hsep] at hc
        cases hc

theorem cutFrom_fst (n : Nesting) (s : List Char) : (cutFrom sep n (cutFrom sep n s).1).2 = [] := by
  induction s generalizing n with
  | nil => rfl
  | cons c rest ih =>
      rw [cutFrom]
      split
      · rfl
      · rename_i hcut
        rw [cutFrom, if_neg hcut]
        exact ih _

theorem cutFrom_of_mem {s : List Char} (h : part ∈ (cutFrom sep n s).2) :
    (cutFrom sep {} part).2 = [] := by
  induction s generalizing n with
  | nil => cases h
  | cons c rest ih =>
      rw [cutFrom] at h
      split at h
      · rename_i hcut
        rw [Bool.and_eq_true, Bool.and_eq_true, Bool.not_eq_true'] at hcut
        obtain ⟨⟨htop, -⟩, hmarker⟩ := hcut
        obtain rfl := isTop_iff.mp htop
        -- The cut is at the top, and the separator leaves the rest there.
        rw [next_top_of_not_isMarker hmarker] at h
        rcases List.mem_cons.mp h with rfl | h
        · exact cutFrom_fst {} rest
        · exact ih h
      · exact ih h

end Nesting

theorem splitTopLevel_of_mem {sep : Char} {s part : List Char} (h : part ∈ splitTopLevel sep s) :
    splitTopLevel sep part = [part] := by
  rcases List.mem_cons.mp h with rfl | h
  · exact splitTopLevel_eq_singleton (Nesting.cutFrom_fst {} s)
  · exact splitTopLevel_eq_singleton (Nesting.cutFrom_of_mem h)

/-- Splitting loses nothing and is final: the parts with the separator between them are the text, and no
part splits again. There is one part more than the separator stands outside quotes at depth zero, and
a quote or a bracket splits no text. -/
theorem splitTopLevel_lossless_final (sep : Char) (s : List Char) :
    Text.joinWith [sep] (splitTopLevel sep s) = s ∧
      (∀ part ∈ splitTopLevel sep s, splitTopLevel sep part = [part]) ∧
      (sep ∉ Nesting.markers → (splitTopLevel sep s).length = topSeparators sep s + 1) ∧
      (sep ∈ Nesting.markers → splitTopLevel sep s = [s]) := by
  refine ⟨joinWith_splitTopLevel sep s, fun part => splitTopLevel_of_mem, ?_, ?_⟩
  · intro hsep
    rw [← Nesting.isMarker_iff, Bool.not_eq_true] at hsep
    rw [splitTopLevel, List.length_cons, Nesting.length_cutFrom_eq hsep]
  · intro hsep
    exact splitTopLevel_eq_singleton (Nesting.cutFrom_of_isMarker (Nesting.isMarker_iff.mpr hsep) {} s)

/-- A bracket that closes nothing, a bracket in a string and a quote that stays open: of seven commas
three are at the top. -/
theorem splitTopLevel_lossless_final_unbalanced :
    "b(\x27]\x27,2,1)".toList ∈ splitTopLevel ',' "a),b(\x27]\x27,2,1),c,\x22d,(,e".toList ∧
      splitTopLevel ',' "b(\x27]\x27,2,1)".toList = ["b(\x27]\x27,2,1)".toList] ∧
      ',' ∉ Nesting.markers ∧
      topSeparators ',' "a),b(\x27]\x27,2,1),c,\x22d,(,e".toList = 3 ∧
      (splitTopLevel ',' "a),b(\x27]\x27,2,1),c,\x22d,(,e".toList).length = 4 ∧
      ')' ∈ Nesting.markers ∧
      splitTopLevel ')' "a),b(\x27]\x27,2,1),c,\x22d,(,e".toList =
        ["a),b(\x27]\x27,2,1),c,\x22d,(,e".toList] := by
  obtain ⟨-, hfinal, hcount, -⟩ :=
    splitTopLevel_lossless_final ',' "a),b(\x27]\x27,2,1),c,\x22d,(,e".toList
  have hpart : "b(\x27]\x27,2,1)".toList ∈ splitTopLevel ',' "a),b(\x27]\x27,2,1),c,\x22d,(,e".toList := by
    decide
  have hcomma : ',' ∉ Nesting.markers := by decide
  have hplaces : topSeparators ',' "a),b(\x27]\x27,2,1),c,\x22d,(,e".toList = 3 := by decide
  have hbracket : ')' ∈ Nesting.markers := by decide
  refine ⟨hpart, hfinal _ hpart, hcomma, hplaces, ?_, hbracket, ?_⟩
  · rw [hcount hcomma, hplaces]
  · exact (splitTopLevel_lossless_final ')' _).2.2.2 hbracket

end NamelistCatalog
