import NamelistCatalog.Proofs.Text.Trim
import NamelistCatalog.Statement

namespace NamelistCatalog

theorem foldl_nextQuote_eq_none {s : List Char} (h : ∀ c ∈ s, isQuote c = false) :
    s.foldl nextQuote none = none := by
  induction s with
  | nil => rfl
  | cons c rest ih =>
      rw [List.forall_mem_cons] at h
      rw [List.foldl_cons, nextQuote, if_neg (by simp [h.1]), ih h.2]

namespace Line

/-- Every exclamation mark of the text stands in quotes. -/
def IsCode (s : List Char) : Prop :=
  ∀ before after, s = before ++ '!' :: after → (before.foldl nextQuote none).isSome

theorem isBlankText_comment (s : List Char) : Text.isBlankText ('!' :: s) = false := by
  rw [Text.isBlankText_cons, Bool.and_eq_false_iff]
  exact .inl (by decide)

theorem commentBody?_cons {s : List Char} (hmark : s.head? ≠ some '!')
    (hend : ∀ c ∈ s.getLast?, Text.isBlank c = false) : commentBody? ('!' :: s) = some s := by
  have hstart : Text.trimStart ('!' :: s) = '!' :: s :=
    List.dropWhile_cons_of_neg (by decide)
  have hmarks : s.dropWhile (· == '!') = s := by
    apply Text.dropWhile_eq_self
    intro c hc
    rw [beq_eq_false_iff_ne]
    rintro rfl
    exact hmark hc
  rw [commentBody?, hstart]
  change some (Text.trimEnd (s.dropWhile (· == '!'))) = some s
  rw [hmarks, Text.trimEnd, Text.dropEndWhile_eq_self hend]

theorem trim_of_trimStart_eq_cons {line rest : List Char} (h : Text.trimStart line = '!' :: rest) :
    ∃ marks, Text.trim line =
        List.replicate (marks + 1) '!' ++ Text.trimEnd (rest.dropWhile (· == '!')) ∧
      (Text.trimEnd (rest.dropWhile (· == '!'))).head? ≠ some '!' := by
  have hmarks : rest.takeWhile (· == '!') =
      List.replicate (rest.takeWhile (· == '!')).length '!' :=
    List.eq_replicate_of_mem fun c hc =>
      beq_iff_eq.mp (List.all_eq_true.mp (List.all_takeWhile (p := (· == '!'))) c hc)
  have hline : '!' :: rest = List.replicate ((rest.takeWhile (· == '!')).length + 1) '!' ++
      rest.dropWhile (· == '!') := by
    rw [List.replicate_succ, ← hmarks, List.cons_append, List.takeWhile_append_dropWhile]
  refine ⟨(rest.takeWhile (· == '!')).length, ?_, ?_⟩
  · rw [Text.trim, h, hline, Text.trimEnd_append (by simp)]
    intro c hc
    rw [List.eq_of_mem_replicate (List.mem_of_getLast? hc)]
    decide
  · intro hfirst
    have hend := Text.dropEndWhile_isPrefix Text.isBlank (rest.dropWhile (· == '!'))
    have hmark := Text.eq_false_of_mem_head?_dropWhile (Text.mem_head?_of_isPrefix hend hfirst)
    cases hmark

theorem commentBody?_eq_some_iff {line : Line} {body : List Char} :
    line.commentBody? = some body ↔
      ∃ marks, Text.trim line = List.replicate (marks + 1) '!' ++ body ∧ body.head? ≠ some '!' := by
  constructor
  · intro h
    rw [commentBody?] at h
    split at h
    · rename_i rest hstart
      obtain rfl := Option.some.inj h
      exact trim_of_trimStart_eq_cons hstart
    · cases h
  · rintro ⟨marks, htrim, hbody⟩
    have hfirst : (Text.trimStart line).head? = some '!' := by
      rw [← Text.head?_trim, htrim]
      rfl
    obtain ⟨rest, hstart⟩ := List.head?_eq_some_iff.mp hfirst
    obtain ⟨marks', htrim', hbody'⟩ := trim_of_trimStart_eq_cons hstart
    -- The text is what is left of the trimmed line without the marks.
    have hcut : ∀ n s, List.head? s ≠ some '!' →
        (List.replicate (n + 1) '!' ++ s).dropWhile (· == '!') = s := by
      intro n s hs
      apply Text.dropWhile_append_of_head?
      · intro c hc
        rw [List.eq_of_mem_replicate hc]
        decide
      · intro c hc
        rw [beq_eq_false_iff_ne]
        rintro rfl
        exact hs hc
    rw [commentBody?, hstart]
    change some (Text.trimEnd (rest.dropWhile (· == '!'))) = some body
    rw [← hcut marks' _ hbody', ← htrim', htrim, hcut marks _ hbody]

theorem commentBody?_eq_none {c : Char} (hblank : Text.isBlank c = false) (hmark : c ≠ '!')
    (rest : List Char) : commentBody? (c :: rest) = none := by
  have hstart : Text.trimStart (c :: rest) = c :: rest :=
    List.dropWhile_cons_of_neg (by simp [hblank])
  rw [commentBody?, hstart]
  split
  · rename_i heq
    exact absurd (List.cons.inj heq).1 hmark
  · rfl

theorem codeAfter_eq_self_iff {quote : Option Char} {s : List Char} :
    codeAfter quote s = s ↔
      ∀ before after, s = before ++ '!' :: after → (before.foldl nextQuote quote).isSome := by
  induction s generalizing quote with
  | nil => simp [codeAfter]
  | cons c rest ih =>
      rw [codeAfter]
      split
      · rename_i hmark
        rw [Bool.and_eq_true, Option.isNone_iff_eq_none, beq_iff_eq] at hmark
        obtain ⟨rfl, rfl⟩ := hmark
        simp only [List.nil_eq, reduceCtorEq, false_iff]
        intro h
        simpa using h [] rest rfl
      · rename_i hmark
        rw [List.cons.injEq, ih]
        constructor
        · rintro ⟨-, h⟩ before after heq
          cases before with
          | nil =>
              obtain ⟨rfl, rfl⟩ := List.cons.inj heq
              cases quote with
              | none => exact absurd rfl hmark
              | some mark => rfl
          | cons d before =>
              obtain ⟨rfl, rfl⟩ := List.cons.inj heq
              exact h before after rfl
        · intro h
          refine ⟨rfl, ?_⟩
          intro before after heq
          exact h (c :: before) after (by rw [heq, List.cons_append])

theorem code_eq_self_iff {s : List Char} : code s = s ↔ IsCode s := codeAfter_eq_self_iff

instance (s : List Char) : Decidable (IsCode s) := decidable_of_iff _ code_eq_self_iff

theorem codeAfter_append {quote : Option Char} {s : List Char} (hs : codeAfter quote s = s)
    (t : List Char) : codeAfter quote (s ++ t) = s ++ codeAfter (s.foldl nextQuote quote) t := by
  induction s generalizing quote with
  | nil => rfl
  | cons c rest ih =>
      rw [codeAfter] at hs
      split at hs
      · cases hs
      · rename_i hmark
        rw [List.cons_append, codeAfter, if_neg hmark, ih (List.cons.inj hs).2, List.foldl_cons,
          List.cons_append]

theorem IsCode.of_isPrefix {s t : List Char} (ht : IsCode t) (h : s <+: t) : IsCode s := by
  obtain ⟨rest, rfl⟩ := h
  intro before after hs
  apply ht before (after ++ rest)
  rw [hs, List.append_assoc, List.cons_append]

/-- Code that leaves no quote open. -/
structure IsClosedCode (s : List Char) : Prop where
  code : IsCode s
  closed : s.foldl nextQuote none = none

theorem IsClosedCode.isCode_append {s t : List Char} (hs : IsClosedCode s) (ht : IsCode t) :
    IsCode (s ++ t) := by
  rw [← code_eq_self_iff, Line.code] at ht ⊢
  rw [codeAfter_append (code_eq_self_iff.mpr hs.code), hs.closed, ht]

theorem IsClosedCode.append {s t : List Char} (hs : IsClosedCode s) (ht : IsClosedCode t) :
    IsClosedCode (s ++ t) := by
  refine ⟨hs.isCode_append ht.code, ?_⟩
  rw [List.foldl_append, hs.closed, ht.closed]

theorem IsClosedCode.isCode_of_append {s t : List Char} (hs : IsClosedCode s) (h : IsCode (s ++ t)) :
    IsCode t := by
  intro before after heq
  have hquote := h (s ++ before) after (by rw [heq, List.append_assoc])
  rwa [List.foldl_append, hs.closed] at hquote

theorem IsClosedCode.of_append {s t : List Char} (hs : IsClosedCode s) (h : IsClosedCode (s ++ t)) :
    IsClosedCode t := by
  refine ⟨hs.isCode_of_append h.code, ?_⟩
  have hclosed := h.closed
  rwa [List.foldl_append, hs.closed] at hclosed

/-- Text in a quote that is open in front of it and still open behind it. -/
def IsQuoted (mark : Char) (s : List Char) : Prop :=
  codeAfter (some mark) s = s ∧ s.foldl nextQuote (some mark) = some mark

instance (mark : Char) (s : List Char) : Decidable (IsQuoted mark s) :=
  inferInstanceAs (Decidable (_ ∧ _))

theorem IsClosedCode.isCode_append_quoted {mark : Char} {s t : List Char} (hs : IsClosedCode s)
    (hmark : isQuote mark = true) (ht : IsQuoted mark t) : IsCode (s ++ mark :: t) := by
  apply hs.isCode_append
  have hopen : nextQuote none mark = some mark := if_pos hmark
  have hne : mark ≠ '!' := by
    rintro rfl
    cases hmark
  rw [← code_eq_self_iff, Line.code, codeAfter, if_neg (by simp [hne]), hopen, ht.1]

theorem codeAfter_codeAfter (quote : Option Char) (s : List Char) :
    codeAfter quote (codeAfter quote s) = codeAfter quote s := by
  induction s generalizing quote with
  | nil => rfl
  | cons c rest ih =>
      rw [codeAfter]
      split
      · rfl
      · rename_i hmark
        rw [codeAfter, if_neg hmark, ih]

theorem isCode_code (line : Line) : IsCode line.code :=
  code_eq_self_iff.mp (codeAfter_codeAfter none line)

theorem codeAfter_eq_or {quote : Option Char} (s : List Char) :
    codeAfter quote s = s ∨
      ∃ rest, s = codeAfter quote s ++ '!' :: rest ∧
        (codeAfter quote s).foldl nextQuote quote = none := by
  induction s generalizing quote with
  | nil => exact .inl rfl
  | cons c rest ih =>
      rw [codeAfter]
      split
      · rename_i hmark
        rw [Bool.and_eq_true, Option.isNone_iff_eq_none, beq_iff_eq] at hmark
        obtain ⟨rfl, rfl⟩ := hmark
        exact .inr ⟨rest, rfl, rfl⟩
      · rcases @ih (nextQuote quote c) with heq | ⟨cut, heq, hquote⟩
        · exact .inl (by rw [heq])
        · exact .inr ⟨cut, congrArg (c :: ·) heq, hquote⟩

/-- Text that is not code all through is code up to an exclamation mark outside quotes. -/
theorem exists_eq_append_comment {s : List Char} (h : ¬IsCode s) :
    ∃ u rest, s = u ++ '!' :: rest ∧ IsClosedCode u := by
  rcases codeAfter_eq_or s with heq | ⟨rest, heq, hquote⟩
  · exact absurd (code_eq_self_iff.mp heq) h
  · exact ⟨code s, rest, heq, isCode_code s, hquote⟩

/-- A character that starts neither a comment nor a quote and does not end the line. -/
def isPlainChar (c : Char) : Bool := c != '!' && (!isQuote c && c != '\n')

theorem isPlainChar_iff {c : Char} :
    isPlainChar c = true ↔ c ≠ '!' ∧ isQuote c = false ∧ c ≠ '\n' := by
  simp [isPlainChar]

theorem isClosedCode_of_forall {s : List Char} (hs : ∀ c ∈ s, c ≠ '!' ∧ isQuote c = false) :
    IsClosedCode s := by
  refine ⟨?_, ?_⟩
  · rintro before after rfl
    exact absurd rfl (hs '!' (by simp)).1
  · exact foldl_nextQuote_eq_none fun c hc => (hs c hc).2

theorem isClosedCode_plain {s : List Char} (hs : ∀ c ∈ s, isPlainChar c = true) :
    IsClosedCode s := by
  apply isClosedCode_of_forall
  intro c hc
  obtain ⟨hmark, hquote, -⟩ := isPlainChar_iff.mp (hs c hc)
  exact ⟨hmark, hquote⟩

theorem isClosedCode_of_all {s : List Char} (hs : s.all isPlainChar = true) : IsClosedCode s :=
  isClosedCode_plain (List.all_eq_true.mp hs)

end Line

/-- Code that ends in no ampersand is a statement without its blanks at the ends. -/
theorem Statement.join_of_isCode {line : Line} (hcode : Line.IsCode line)
    (hend : (Text.trim line).getLast? ≠ some '&') (rest : List Line) :
    Statement.join line rest = (Text.trim line, 0) := by
  have hlast : beforeContinuation? (Text.trim line) = none := by
    rw [beforeContinuation?, Text.dropEnd?_eq_none]
    · rfl
    · rintro ⟨before, hbefore⟩
      rw [← hbefore] at hend
      exact hend List.getLast?_concat
  rw [join, Line.code_eq_self_iff.mpr hcode]
  dsimp only
  rw [hlast]

theorem Statement.join_eq {line : Line} (hcode : Line.IsCode line) (htrimmed : Text.IsTrimmed line)
    (hend : line.getLast? ≠ some '&') (rest : List Line) : Statement.join line rest = (line, 0) := by
  have htrim : Text.trim line = line := Text.trim_eq_self_iff.mpr htrimmed
  have hjoin := Statement.join_of_isCode hcode (by rw [htrim]; exact hend) rest
  rw [htrim] at hjoin
  exact hjoin

end NamelistCatalog
