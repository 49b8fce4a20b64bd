import NamelistCatalog.Proofs.Statement.Nesting

/-!
Matching parentheses. The scan behind the first opening parenthesis stops where, for the first time, more
parentheses were closed than opened, and what it has passed by then is balanced. A count of the open
parentheses that starts in front of the first one comes to zero only where the scan stops.
-/

namespace NamelistCatalog

/-- Every parenthesis of the text is closed in it, and no prefix closes more than it opens. -/
structure IsBalanced (t : List Char) : Prop where
  closed : t.count ')' = t.count '('
  opened : ∀ p, p <+: t → p.count ')' ≤ p.count '('

/-- No prefix of the text closes more than `depth` parentheses that it did not open. -/
def ClosesAtMost (depth : Nat) (t : List Char) : Prop :=
  ∀ p, p <+: t → p.count ')' ≤ p.count '(' + depth

/-- The text closes `depth` parentheses that it did not open, and no prefix closes more. -/
structure ClosesAll (depth : Nat) (t : List Char) : Prop where
  all : t.count ')' = t.count '(' + depth
  atMost : ClosesAtMost depth t

section Closing

variable {depth : Nat} {c : Char} {t : List Char}

theorem closesAtMost_nil : ClosesAtMost depth [] := by
  intro p hp
  rw [List.prefix_nil.mp hp]
  exact Nat.zero_le _

theorem closesAtMost_cons :
    ClosesAtMost depth (c :: t) ↔
      ∀ p, p <+: t → (c :: p).count ')' ≤ (c :: p).count '(' + depth := by
  constructor
  · intro h p hp
    exact h (c :: p) (List.cons_prefix_cons.mpr ⟨rfl, hp⟩)
  · intro h p hp
    rcases List.prefix_cons_iff.mp hp with rfl | ⟨q, rfl, hq⟩
    · exact Nat.zero_le _
    · exact h q hq

theorem closesAtMost_opening : ClosesAtMost depth ('(' :: t) ↔ ClosesAtMost (depth + 1) t := by
  rw [closesAtMost_cons]
  refine forall₂_congr fun p _ => ?_
  rw [List.count_cons_self, List.count_cons_of_ne (by decide)]
  omega

theorem closesAtMost_closing : ClosesAtMost (depth + 1) (')' :: t) ↔ ClosesAtMost depth t := by
  rw [closesAtMost_cons]
  refine forall₂_congr fun p _ => ?_
  rw [List.count_cons_self, List.count_cons_of_ne (by decide)]
  omega

theorem not_closesAtMost_closing : ¬ClosesAtMost 0 (')' :: t) := by
  intro h
  have hfirst := h [')'] (List.prefix_append [')'] t)
  revert hfirst
  decide

theorem closesAtMost_other (hopening : c ≠ '(') (hclosing : c ≠ ')') :
    ClosesAtMost depth (c :: t) ↔ ClosesAtMost depth t := by
  rw [closesAtMost_cons]
  refine forall₂_congr fun p _ => ?_
  rw [List.count_cons_of_ne hopening, List.count_cons_of_ne hclosing]

theorem closesAll_iff :
    ClosesAll depth t ↔ t.count ')' = t.count '(' + depth ∧ ClosesAtMost depth t :=
  ⟨fun h => ⟨h.all, h.atMost⟩, fun h => ⟨h.1, h.2⟩⟩

theorem closesAll_zero_iff : ClosesAll 0 t ↔ IsBalanced t :=
  ⟨fun h => ⟨h.all, h.atMost⟩, fun h => ⟨h.closed, h.opened⟩⟩

theorem closesAll_nil_iff : ClosesAll depth [] ↔ depth = 0 := by
  rw [closesAll_iff, and_iff_left closesAtMost_nil, List.count_nil, List.count_nil, Nat.zero_add,
    eq_comm]

theorem closesAll_opening : ClosesAll depth ('(' :: t) ↔ ClosesAll (depth + 1) t := by
  rw [closesAll_iff, closesAll_iff, closesAtMost_opening, List.count_cons_self,
    List.count_cons_of_ne (by decide), Nat.add_right_comm, Nat.add_assoc]

theorem closesAll_closing : ClosesAll (depth + 1) (')' :: t) ↔ ClosesAll depth t := by
  rw [closesAll_iff, closesAll_iff, closesAtMost_closing, List.count_cons_self,
    List.count_cons_of_ne (by decide), ← Nat.add_assoc, Nat.add_right_cancel_iff]

theorem closesAll_other (hopening : c ≠ '(') (hclosing : c ≠ ')') :
    ClosesAll depth (c :: t) ↔ ClosesAll depth t := by
  rw [closesAll_iff, closesAll_iff, closesAtMost_other hopening hclosing,
    List.count_cons_of_ne hopening, List.count_cons_of_ne hclosing]

end Closing

section UntilClosed

variable {depth : Nat} {s inside : List Char}

theorem untilClosed?_eq_none_iff : untilClosed? depth s = none ↔ ClosesAtMost depth s := by
  fun_induction untilClosed? depth s with
  | case1 depth => exact iff_of_true rfl closesAtMost_nil
  | case2 depth c rest hopening ih =>
      obtain rfl := beq_iff_eq.mp hopening
      rw [Option.map_eq_none_iff, ih, closesAtMost_opening]
  | case3 c rest hopening hclosing =>
      obtain rfl := beq_iff_eq.mp hclosing
      exact iff_of_false (Option.some_ne_none _) not_closesAtMost_closing
  | case4 c rest hopening hclosing depth ih =>
      obtain rfl := beq_iff_eq.mp hclosing
      rw [Option.map_eq_none_iff, ih, closesAtMost_closing]
  | case5 depth c rest hopening hclosing ih =>
      rw [beq_iff_eq] at hopening hclosing
      rw [Option.map_eq_none_iff, ih, closesAtMost_other hopening hclosing]

theorem exists_of_untilClosed? (h : untilClosed? depth s = some inside) :
    ∃ rest, s = inside ++ ')' :: rest ∧ ClosesAll depth inside := by
  fun_induction untilClosed? depth s generalizing inside with
  | case1 => cases h
  | case2 depth c rest hopening ih =>
      obtain rfl := beq_iff_eq.mp hopening
      obtain ⟨more, hmore, rfl⟩ := Option.map_eq_some_iff.mp h
      obtain ⟨tail, rfl, hall⟩ := ih hmore
      exact ⟨tail, rfl, closesAll_opening.mpr hall⟩
  | case3 c rest hopening hclosing =>
      obtain rfl := beq_iff_eq.mp hclosing
      obtain rfl := Option.some.inj h
      exact ⟨rest, rfl, closesAll_nil_iff.mpr rfl⟩
  | case4 c rest hopening hclosing depth ih =>
      obtain rfl := beq_iff_eq.mp hclosing
      obtain ⟨more, hmore, rfl⟩ := Option.map_eq_some_iff.mp h
      obtain ⟨tail, rfl, hall⟩ := ih hmore
      exact ⟨tail, rfl, closesAll_closing.mpr hall⟩
  | case5 depth c rest hopening hclosing ih =>
      rw [beq_iff_eq] at hopening hclosing
      obtain ⟨more, hmore, rfl⟩ := Option.map_eq_some_iff.mp h
      obtain ⟨tail, rfl, hall⟩ := ih hmore
      exact ⟨tail, rfl, (closesAll_other hopening hclosing).mpr hall⟩

theorem untilClosed?_append_closing (h : ClosesAll depth inside) (rest : List Char) :
    untilClosed? depth (inside ++ ')' :: rest) = some inside := by
  induction inside generalizing depth with
  | nil =>
      obtain rfl := closesAll_nil_iff.mp h
      rfl
  | cons c more ih =>
      by_cases hopening : c = '('
      · subst hopening
        have hmore := ih (closesAll_opening.mp h)
        simp [untilClosed?, hmore]
      · by_cases hclosing : c = ')'
        · subst hclosing
          cases depth with
          | zero => exact absurd h.atMost not_closesAtMost_closing
          | succ depth =>
              have hmore := ih (closesAll_closing.mp h)
              simp [untilClosed?, hmore]
        · have hmore := ih ((closesAll_other hopening hclosing).mp h)
          simp [untilClosed?, hopening, hclosing, hmore]

end UntilClosed

theorem Scope.closesAll_run {scope : Scope} {t : List Char} (h : scope.run? t = some {})
    (hquote : scope.quote = none) (hplain : ∀ c ∈ t, isQuote c = false) :
    ClosesAll (scope.closers.count ')') t := by
  induction t generalizing scope with
  | nil =>
      obtain rfl := Option.some.inj h
      exact closesAll_nil_iff.mpr rfl
  | cons c rest ih =>
      rw [List.forall_mem_cons] at hplain
      obtain ⟨next, -, hstep, h⟩ := exists_step_of_run?_cons h
      have hnone : next.quote = none := by
        rw [← hstep.nextQuote_eq, hquote]
        exact if_neg (Bool.eq_false_iff.mp hplain.1)
      have hrest := ih h hnone hplain.2
      cases hstep with
      | quoted => cases hquote
      | quote hmark =>
          rw [hplain.1] at hmark
          cases hmark
      | opening _ hopening =>
          by_cases hround : c = '('
          · subst hround
            rw [closerOf, if_pos (by decide), List.count_cons_self] at hrest
            exact closesAll_opening.mpr hrest
          · obtain rfl : c = '[' := by simpa [Nesting.isOpening, hround] using hopening
            rw [closerOf, if_neg (by decide), List.count_cons_of_ne (by decide)] at hrest
            exact (closesAll_other (by decide) (by decide)).mpr hrest
      | closing _ _ hclosing =>
          by_cases hround : c = ')'
          · subst hround
            rw [List.count_cons_self]
            exact closesAll_closing.mpr hrest
          · obtain rfl : c = ']' := by simpa [Nesting.isClosing, hround] using hclosing
            rw [List.count_cons_of_ne (by decide)]
            exact (closesAll_other (by decide) (by decide)).mpr hrest
      | plain _ hopening hclosing =>
          simp only [Nesting.isOpening, Nesting.isClosing, Bool.or_eq_false_iff,
            beq_eq_false_iff_ne] at hopening hclosing
          exact (closesAll_other hopening.1 hclosing.1).mpr hrest

theorem IsNested.isBalanced {t : List Char} (h : IsNested t) (hplain : ∀ c ∈ t, isQuote c = false) :
    IsBalanced t :=
  closesAll_zero_iff.mp (Scope.closesAll_run h rfl hplain)

section Split

variable {s t before inside : List Char}

theorem splitParenthesized?_append_left (hs : '(' ∉ s) (t : List Char) :
    splitParenthesized? (s ++ t) = (splitParenthesized? t).map fun parts => (s ++ parts.1, parts.2) := by
  have hbefore : ∀ c ∈ s, (c != '(') = true := by
    intro c hc
    rw [bne_iff_ne]
    rintro rfl
    exact hs hc
  rw [splitParenthesized?, List.dropWhile_append_of_pos hbefore,
    List.takeWhile_append_of_pos hbefore, splitParenthesized?]
  split
  · rfl
  · rw [Option.map_map]
    rfl

theorem splitParenthesized?_eq_none (hs : '(' ∉ s) : splitParenthesized? s = none := by
  have hnone := splitParenthesized?_append_left hs []
  rw [List.append_nil] at hnone
  exact hnone

theorem splitParenthesized?_append_cons (hs : '(' ∉ s) (t : List Char) :
    splitParenthesized? (s ++ '(' :: t) = (untilClosed? 0 t).map (s, ·) := by
  rw [splitParenthesized?_append_left hs, splitParenthesized?, List.dropWhile_cons_of_neg (by decide),
    List.takeWhile_cons_of_neg (by decide)]
  dsimp only
  rw [Option.map_map]
  congr 1
  funext inside
  exact congrArg (·, inside) (List.append_nil s)

theorem splitParenthesized?_eq_some_iff :
    splitParenthesized? s = some (before, inside) ↔
      ∃ rest, s = before ++ '(' :: (inside ++ ')' :: rest) ∧ '(' ∉ before ∧ IsBalanced inside := by
  constructor
  · intro h
    by_cases hs : '(' ∈ s
    · obtain ⟨u, after, rfl, hu⟩ := List.eq_append_cons_of_mem hs
      rw [splitParenthesized?_append_cons hu] at h
      obtain ⟨found, hfound, heq⟩ := Option.map_eq_some_iff.mp h
      obtain ⟨rfl, rfl⟩ := Prod.mk.inj heq
      obtain ⟨rest, rfl, hall⟩ := exists_of_untilClosed? hfound
      exact ⟨rest, rfl, hu, closesAll_zero_iff.mp hall⟩
    · rw [splitParenthesized?_eq_none hs] at h
      cases h
  · rintro ⟨rest, rfl, hbefore, hinside⟩
    rw [splitParenthesized?_append_cons hbefore,
      untilClosed?_append_closing (closesAll_zero_iff.mpr hinside), Option.map_some]

theorem splitParenthesized?_eq_none_iff :
    splitParenthesized? s = none ↔
      '(' ∉ s ∨ ∃ before after, s = before ++ '(' :: after ∧ '(' ∉ before ∧ ClosesAtMost 0 after := by
  constructor
  · intro h
    by_cases hs : '(' ∈ s
    · obtain ⟨before, after, rfl, hbefore⟩ := List.eq_append_cons_of_mem hs
      rw [splitParenthesized?_append_cons hbefore, Option.map_eq_none_iff] at h
      exact .inr ⟨before, after, rfl, hbefore, untilClosed?_eq_none_iff.mp h⟩
    · exact .inl hs
  · rintro (hs | ⟨before, after, rfl, hbefore, hopen⟩)
    · exact splitParenthesized?_eq_none hs
    · rw [splitParenthesized?_append_cons hbefore, untilClosed?_eq_none_iff.mpr hopen, Option.map_none]

theorem fst_of_splitParenthesized? (h : splitParenthesized? s = some (before, inside)) :
    before = s.takeWhile (· != '(') := by
  obtain ⟨rest, rfl, hbefore, -⟩ := splitParenthesized?_eq_some_iff.mp h
  rw [List.takeWhile_append_of_pos, List.takeWhile_cons_of_neg (by decide), List.append_nil]
  intro c hc
  rw [bne_iff_ne]
  rintro rfl
  exact hbefore hc

theorem splitParenthesized?_append_right {parts : List Char × List Char}
    (h : splitParenthesized? s = some parts) (t : List Char) :
    splitParenthesized? (s ++ t) = some parts := by
  obtain ⟨rest, rfl, hbefore, hinside⟩ := splitParenthesized?_eq_some_iff.mp h
  exact splitParenthesized?_eq_some_iff.mpr ⟨rest ++ t, by simp, hbefore, hinside⟩

theorem splitParenthesized?_append (hs : '(' ∉ s) (hnested : IsNested inside)
    (hplain : ∀ c ∈ inside, isQuote c = false) (rest : List Char) :
    splitParenthesized? (s ++ '(' :: (inside ++ ')' :: rest)) = some (s, inside) :=
  splitParenthesized?_eq_some_iff.mpr ⟨rest, rfl, hs, hnested.isBalanced hplain⟩

end Split

/-- An unsigned count is taken below zero. -/
inductive CountFault
  | belowZero
deriving DecidableEq, Repr

namespace ParenthesisCount

def close : Nat → Except CountFault Nat
  | 0 => .error .belowZero
  | depth + 1 => .ok depth

/-- How far into a text the count of open parentheses comes to zero, which it does only when one is
closed. -/
def placeOfZero? (depth : Nat) : List Char → Except CountFault (Option Nat)
  | [] => .ok none
  | c :: rest =>
      if c == '(' then (placeOfZero? (depth + 1) rest).map (Option.map (· + 1))
      else if c == ')' then do
        let left ← close depth
        if left == 0 then return some 0
        (placeOfZero? left rest).map (Option.map (· + 1))
      else (placeOfZero? depth rest).map (Option.map (· + 1))

/-- What stands before the first opening parenthesis, and what stands between it and the place at which
no parenthesis is open any more. The count starts at zero and takes in the first parenthesis. -/
def split? (s : List Char) : Except CountFault (Option (List Char × List Char)) :=
  let scanned := s.dropWhile (· != '(')
  (placeOfZero? 0 scanned).map
    (Option.map fun place => (s.takeWhile (· != '('), (scanned.take place).drop 1))

theorem map_succ_map_length (c : Char) (found : Option (List Char)) :
    (found.map List.length).map (· + 1) = (found.map (c :: ·)).map List.length := by
  cases found <;> rfl

theorem placeOfZero?_succ (depth : Nat) (s : List Char) :
    placeOfZero? (depth + 1) s = .ok ((untilClosed? depth s).map List.length) := by
  -- The count also has the parenthesis in front of the text, so there is one to close at every place.
  fun_induction untilClosed? depth s with
  | case1 depth => rfl
  | case2 depth c rest hopening ih =>
      rw [placeOfZero?, if_pos hopening, ih]
      exact congrArg Except.ok (map_succ_map_length c _)
  | case3 c rest hopening hclosing =>
      rw [placeOfZero?, if_neg hopening, if_pos hclosing]
      rfl
  | case4 c rest hopening hclosing depth ih =>
      rw [placeOfZero?, if_neg hopening, if_pos hclosing]
      change (placeOfZero? (depth + 1) rest).map _ = _
      rw [ih]
      exact congrArg Except.ok (map_succ_map_length c _)
  | case5 depth c rest hopening hclosing ih =>
      rw [placeOfZero?, if_neg hopening, if_neg hclosing, ih]
      exact congrArg Except.ok (map_succ_map_length c _)

/-- Counting the parentheses gives what matching them gives, and the count never goes below zero. -/
theorem split?_eq (s : List Char) : split? s = .ok (splitParenthesized? s) := by
  rw [split?, splitParenthesized?]
  cases hscanned : s.dropWhile (· != '(') with
  | nil => rfl
  | cons c rest =>
      have hopening : c = '(' := by
        simpa using Text.eq_false_of_mem_head?_dropWhile (p := (· != '(')) (by rw [hscanned]; rfl)
      subst hopening
      have hplace : placeOfZero? 0 ('(' :: rest) =
          .ok (((untilClosed? 0 rest).map ('(' :: ·)).map List.length) := by
        rw [placeOfZero?, if_pos (by decide), placeOfZero?_succ]
        exact congrArg Except.ok (map_succ_map_length '(' _)
      dsimp only
      rw [hplace]
      cases hfound : untilClosed? 0 rest with
      | none => rfl
      | some inside =>
          obtain ⟨after, rfl, -⟩ := exists_of_untilClosed? hfound
          have hinside : ('(' :: (inside ++ ')' :: after)).take (inside.length + 1) = '(' :: inside := by
            rw [List.take_succ_cons, List.take_left]
          change Except.ok (some (_, (List.take (inside.length + 1) _).drop 1)) = _
          rw [hinside]
          rfl

/-- A count that starts behind the first parenthesis does go below zero. -/
example : placeOfZero? 0 ['a', ')'] = .error .belowZero := rfl

end ParenthesisCount

/-- Parentheses are matched exactly. What is found stands between the first opening parenthesis and one
behind it, and is balanced. Nothing is found when there is no opening parenthesis or the first one is never
closed, so that no prefix of what follows closes more than it opens. The count of open parentheses is never
taken below zero. -/
theorem splitParenthesized?_exact (s : List Char) :
    (∀ before inside, splitParenthesized? s = some (before, inside) ↔
      ∃ rest, s = before ++ '(' :: (inside ++ ')' :: rest) ∧ '(' ∉ before ∧ IsBalanced inside) ∧
    (splitParenthesized? s = none ↔
      '(' ∉ s ∨ ∃ before after, s = before ++ '(' :: after ∧ '(' ∉ before ∧
        ∀ p, p <+: after → p.count ')' ≤ p.count '(') ∧
    ParenthesisCount.split? s = .ok (splitParenthesized? s) :=
  ⟨fun _ _ => splitParenthesized?_eq_some_iff, splitParenthesized?_eq_none_iff,
    ParenthesisCount.split?_eq s⟩

end NamelistCatalog
