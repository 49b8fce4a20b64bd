import NamelistCatalog.Proofs.Statement.Layout
import NamelistCatalog.Proofs.Text.Join

/-!
Strings that are broken over lines. The search for a comment starts anew on each line, so a line on which
a string goes on is read whole only if its exclamation marks stand in quotes of that line.
-/

namespace NamelistCatalog

namespace Line

variable {s : List Char}

theorem IsCode.trimEnd (h : IsCode s) : IsCode (Text.trimEnd s) :=
  h.of_isPrefix (Text.dropEndWhile_isPrefix _ s)

theorem IsCode.trimStart (h : IsCode s) : IsCode (Text.trimStart s) := by
  apply (isClosedCode_blank List.all_takeWhile).isCode_of_append
  rw [Text.trimStart, List.takeWhile_append_dropWhile]
  exact h

end Line

namespace Statement

open Line (IsCode)

theorem isCode_resumedCode (line : Line) : IsCode (resumedCode line) := by
  have htrim : IsCode (Text.trim line.code) := (Line.isCode_code line).trimStart.trimEnd
  unfold resumedCode
  split
  · rename_i rest heq
    have hmark : Line.IsClosedCode ['&'] := Line.isClosedCode_of_all (by decide)
    rw [heq] at htrim
    exact (hmark.isCode_of_append htrim).trimStart
  · exact htrim

theorem eq_append_of_beforeContinuation? {code piece : List Char}
    (h : beforeContinuation? code = some piece) :
    ∃ front, code = front ++ ['&'] ∧ piece = Text.trimEnd front := by
  obtain ⟨front, hfront, rfl⟩ := Option.map_eq_some_iff.mp h
  refine ⟨front, ?_, rfl⟩
  by_cases hsuffix : ['&'] <:+ code
  · obtain ⟨before, rfl⟩ := hsuffix
    rw [Text.dropEnd?_append] at hfront
    rw [Option.some.inj hfront]
  · rw [Text.dropEnd?_eq_none hsuffix] at hfront
    cases hfront

theorem beforeContinuation?_trim {text gap tail : List Char} (htext : Text.IsTrimmed text)
    (hgap : Text.isBlankText gap = true) (htail : Text.isBlankText tail = true) :
    beforeContinuation? (Text.trim (text ++ (gap ++ '&' :: tail))) = some text := by
  by_cases hne : text = []
  · have hmark : Text.IsTrimmed ['&'] := by decide
    have htrim : Text.trim (gap ++ (['&'] ++ tail)) = ['&'] :=
      Text.trim_surrounded hgap hmark (by simp) htail
    rw [hne]
    change beforeContinuation? (Text.trim (gap ++ (['&'] ++ tail))) = _
    rw [htrim]
    rfl
  · have hend : Text.trimEnd (gap ++ '&' :: tail) = gap ++ ['&'] := by
      rw [Text.trimEnd_append_cons (by decide), ← List.nil_append tail, Text.trimEnd_append_of_blank htail]
      rfl
    rw [htext.trim_append hne, hend, ← List.append_assoc, beforeContinuation?, Text.dropEnd?_append,
      Option.map_some, Text.trimEnd_append_of_blank hgap, Text.trimEnd,
      Text.dropEndWhile_eq_self htext.2]

theorem isCode_of_mem_continuation {lines : List Line} {piece : List Char}
    (h : piece ∈ (continuation lines).1) : IsCode piece := by
  induction lines with
  | nil => cases h
  | cons line rest ih =>
      rw [continuation] at h
      split at h
      · exact ih h
      · split at h
        · rename_i front hfront
          rcases List.mem_cons.mp h with rfl | h
          · obtain ⟨code, hcode, rfl⟩ := eq_append_of_beforeContinuation? hfront
            have hline := isCode_resumedCode line
            rw [hcode] at hline
            exact (hline.of_isPrefix (List.prefix_append code ['&'])).trimEnd
          · exact ih h
        · rw [List.mem_singleton.mp h]
          exact isCode_resumedCode line

/-- The lines of a statement with an ampersand in front of the first, which makes it a line like the
others. -/
def resumeFirst : List Line → List Line
  | [] => []
  | first :: rest => ('&' :: first) :: rest

/-- The pieces of the statement that starts in the first of these lines. -/
def pieces (lines : List Line) : List (List Char) := (continuation (resumeFirst lines)).1

theorem trim_code_cons_ampersand (line : Line) :
    Text.trim (Line.code ('&' :: line)) = '&' :: Text.trimEnd line.code :=
  Text.trim_cons_of_not_blank (by decide) line.code

theorem resumedCode_cons_ampersand (line : Line) : resumedCode ('&' :: line) = Text.trim line.code := by
  rw [resumedCode, trim_code_cons_ampersand]
  exact Text.trimStart_trimEnd line.code

theorem isCodeless_cons_ampersand (line : Line) : Line.isCodeless ('&' :: line) = false := by
  apply Line.isCodeless_eq_false
  rw [trim_code_cons_ampersand]
  exact List.cons_ne_nil _ _

/-- A statement is its pieces, with single spaces between them. -/
theorem join_eq_trim_pieces (first : Line) (rest : List Line) :
    (join first rest).1 = Text.trim (Text.joinWith [' '] (pieces (first :: rest))) := by
  have hcode : ¬Line.isCodeless ('&' :: first) = true := by
    rw [isCodeless_cons_ampersand]
    exact Bool.false_ne_true
  rw [join, pieces, resumeFirst, continuation, if_neg hcode, resumedCode_cons_ampersand]
  dsimp only
  split
  · rfl
  · exact (Text.trim_eq_self_iff.mpr (Text.isTrimmed_trim first.code)).symm

/-- The statement goes on behind the line. -/
def GoesOn (line : Line) : Prop :=
  line.isCodeless = true ∨ (beforeContinuation? (resumedCode line)).isSome = true

instance (line : Line) : Decidable (GoesOn line) := inferInstanceAs (Decidable (_ ∨ _))

theorem continuation_append_of_goesOn {before : List Line} (h : ∀ line ∈ before, GoesOn line)
    (rest : List Line) :
    (continuation (before ++ rest)).1 = (continuation before).1 ++ (continuation rest).1 := by
  induction before with
  | nil => rfl
  | cons line before ih =>
      rw [List.forall_mem_cons] at h
      rw [List.cons_append, continuation, continuation]
      by_cases hcodeless : line.isCodeless = true
      · rw [if_pos hcodeless, if_pos hcodeless]
        exact ih h.2
      · obtain ⟨piece, hpiece⟩ := Option.isSome_iff_exists.mp (h.1.resolve_left hcodeless)
        rw [if_neg hcodeless, if_neg hcodeless, hpiece]
        exact congrArg (piece :: ·) (ih h.2)

end Statement

namespace SegmentLine

open Line (IsCode)

/-- The line is read from the segment on: what stands in front of it are blanks, and an ampersand if the
line starts with one. -/
structure StartsSegment (s : SegmentLine) : Prop where
  indent : Text.isBlankText s.indent = true
  resumed : ∀ blanks ∈ s.resumed, Text.isBlankText blanks = true
  segment : Text.IsTrimmed s.segment
  unresumed : s.resumed = none →
    s.segment ≠ [] ∧ s.segment.head? ≠ some '&' ∧ s.segment.head? ≠ some '!'

/-- The line ends in an ampersand behind the segment. -/
structure EndsOpen (s : SegmentLine) : Prop where
  gap : Text.isBlankText s.gap = true
  tail : Text.isBlankText s.tail = true
  comment : s.comment = none

variable {s : SegmentLine}

/-- What stands on the line behind the segment. -/
def behind (s : SegmentLine) (continued : Bool) : List Char :=
  (if continued then s.gap ++ ['&'] else []) ++ (s.tail ++ s.commentText)

theorem line_eq (s : SegmentLine) (continued : Bool) :
    s.line continued = s.indent ++ s.resumption ++ (s.segment ++ s.behind continued) := by
  simp [line, codeText, core, behind]

theorem isClosedCode_start (h : s.StartsSegment) : Line.IsClosedCode (s.indent ++ s.resumption) := by
  apply (Line.isClosedCode_blank h.indent).append
  unfold resumption
  split
  · exact Line.isClosedCode_blank rfl
  · rename_i blanks hblanks
    have hmark : Line.IsClosedCode ['&'] := Line.isClosedCode_of_all (by decide)
    exact hmark.append (Line.isClosedCode_blank (h.resumed blanks hblanks))

theorem resumedCode_of_code (h : s.StartsSegment) {line : Line} {t : List Char}
    (hcode : line.code = s.indent ++ s.resumption ++ t)
    (hunresumed : s.resumed = none → ∃ c rest, t = c :: rest ∧ Text.isBlank c = false ∧ c ≠ '&') :
    line.isCodeless = false ∧ Statement.resumedCode line = Text.trim t := by
  have htrim : Text.trim line.code = Text.trim (s.resumption ++ t) := by
    rw [hcode, List.append_assoc, Text.trim, Text.trimStart_append_of_blank h.indent, Text.trim]
  cases hresumed : s.resumed with
  | none =>
      obtain ⟨c, rest, rfl, hc, hamp⟩ := hunresumed hresumed
      rw [resumption, hresumed] at htrim
      change Text.trim line.code = Text.trim (c :: rest) at htrim
      rw [Text.trim_cons_of_not_blank hc] at htrim ⊢
      refine ⟨Line.isCodeless_eq_false (by simp [htrim]), ?_⟩
      rw [Statement.resumedCode, htrim]
      split
      · rename_i heq
        exact absurd (List.cons.inj heq).1 hamp
      · rfl
  | some blanks =>
      rw [resumption, hresumed] at htrim
      change Text.trim line.code = Text.trim ('&' :: (blanks ++ t)) at htrim
      rw [Text.trim_cons_of_not_blank (by decide)] at htrim
      refine ⟨Line.isCodeless_eq_false (by simp [htrim]), ?_⟩
      rw [Statement.resumedCode, htrim]
      change Text.trimStart (Text.trimEnd (blanks ++ t)) = _
      rw [Text.trimStart_trimEnd, Text.trim, Text.trimStart_append_of_blank (h.resumed blanks hresumed),
        Text.trim]

/-- A line with an exclamation mark outside its own quotes is cut there: of the segment only a piece is
left, and what is missing between the piece and the mark holds no quote. -/
theorem continuation_cut (h : s.StartsSegment) (hcode : ¬IsCode s.segment) (continued : Bool)
    (rest : List Line) :
    ∃ piece gap cut more, (Statement.continuation (s.line continued :: rest)).1 = piece :: more ∧
      (∀ later ∈ more, IsCode later) ∧ s.segment = piece ++ (gap ++ '!' :: cut) ∧
        ∀ c ∈ gap, isQuote c = false := by
  obtain ⟨u, cut, hsegment, hu⟩ := Line.exists_eq_append_comment hcode
  have hline : (s.line continued).code = s.indent ++ s.resumption ++ u := by
    rw [line_eq, hsegment, List.append_assoc u, List.cons_append, ← List.append_assoc]
    exact Line.code_append_comment ((isClosedCode_start h).append hu) _
  have hhead : ∀ c ∈ u.head?, s.segment.head? = some c := by
    intro c hc
    rw [hsegment, List.head?_append, hc, Option.some_or]
  have htrim : Text.trim u = Text.trimEnd u := by
    rw [Text.trim, Text.trimStart, Text.dropWhile_eq_self fun c hc => h.segment.1 c (hhead c hc)]
  have hunresumed : s.resumed = none → ∃ c rest, u = c :: rest ∧ Text.isBlank c = false ∧ c ≠ '&' := by
    intro hresumed
    obtain ⟨-, hamp, hmark⟩ := h.unresumed hresumed
    cases u with
    | nil => exact absurd (by rw [hsegment]; rfl) hmark
    | cons c rest =>
        have hc := hhead c rfl
        refine ⟨c, rest, rfl, h.segment.1 c hc, ?_⟩
        rintro rfl
        exact hamp hc
  obtain ⟨hcodeless, hresumed⟩ := resumedCode_of_code h hline hunresumed
  obtain ⟨blanks, hblanks, hend⟩ := Text.exists_trimEnd_append u
  have hblank : ∀ c ∈ blanks, isQuote c = false := fun c hc =>
    (Line.not_mark_of_isBlank (List.all_eq_true.mp hblanks c hc)).2
  rw [Statement.continuation, hcodeless, if_neg Bool.false_ne_true, hresumed, htrim]
  split
  · rename_i piece hpiece
    obtain ⟨front, hfront, rfl⟩ := Statement.eq_append_of_beforeContinuation? hpiece
    obtain ⟨between, hbetween, hbefore⟩ := Text.exists_trimEnd_append front
    refine ⟨Text.trimEnd front, between ++ '&' :: blanks, cut, (Statement.continuation rest).1, rfl,
      fun _ => Statement.isCode_of_mem_continuation, ?_, ?_⟩
    · have hu : u = Text.trimEnd front ++ (between ++ '&' :: blanks) := by
        rw [← hend, hfront, ← List.append_assoc, hbefore, List.append_assoc, List.singleton_append]
      rw [hsegment, hu, List.append_assoc]
    · rw [List.forall_mem_append, List.forall_mem_cons]
      refine ⟨fun c hc => ?_, by decide, hblank⟩
      exact (Line.not_mark_of_isBlank (List.all_eq_true.mp hbetween c hc)).2
  · refine ⟨Text.trimEnd u, blanks, cut, [], rfl, by simp, ?_, hblank⟩
    rw [← List.append_assoc, hend, hsegment]

section Kept

variable (h : s.StartsSegment) (hcode : IsCode s.segment)
include h hcode

theorem code_line_of_isCode (continued : Bool) :
    (s.line continued).code = s.indent ++ s.resumption ++ (s.segment ++
      Line.codeAfter (s.segment.foldl nextQuote none) (s.behind continued)) := by
  have hstart := isClosedCode_start h
  have hall := hstart.isCode_append hcode
  rw [line_eq, ← List.append_assoc, Line.code, Line.codeAfter_append (Line.code_eq_self_iff.mpr hall),
    List.foldl_append, hstart.closed, List.append_assoc]

theorem resumedCode_line_of_isCode (continued : Bool) :
    (s.line continued).isCodeless = false ∧ Statement.resumedCode (s.line continued) =
      Text.trim (s.segment ++ Line.codeAfter (s.segment.foldl nextQuote none) (s.behind continued)) := by
  refine resumedCode_of_code h (code_line_of_isCode h hcode continued) ?_
  intro hresumed
  obtain ⟨hne, hamp, -⟩ := h.unresumed hresumed
  obtain ⟨c, rest, hsegment⟩ := List.exists_cons_of_ne_nil hne
  rw [hsegment] at hamp
  refine ⟨c, _, by rw [hsegment, List.cons_append], h.segment.1 c (by rw [hsegment]; rfl), ?_⟩
  rintro rfl
  exact hamp rfl

theorem continuation_kept (hends : s.EndsOpen) (rest : List Line) :
    (Statement.continuation (s.line true :: rest)).1 = s.segment :: (Statement.continuation rest).1 := by
  have hbehind : s.behind true = s.gap ++ ('&' :: s.tail) := by
    simp [behind, commentText, hends.comment]
  have hmark : '!' ∉ s.behind true := by
    have hblank : ∀ {t : List Char}, Text.isBlankText t = true → '!' ∉ t := fun ht hmem =>
      (Line.not_mark_of_isBlank (List.all_eq_true.mp ht '!' hmem)).1 rfl
    rw [hbehind, List.mem_append, List.mem_cons, not_or, not_or]
    exact ⟨hblank hends.gap, by decide, hblank hends.tail⟩
  have hall : Line.codeAfter (s.segment.foldl nextQuote none) (s.behind true) = s.behind true :=
    Line.codeAfter_eq_self_iff.mpr fun before after heq => absurd (by simp [heq]) hmark
  obtain ⟨hcodeless, hresumed⟩ := resumedCode_line_of_isCode h hcode true
  rw [hall, hbehind] at hresumed
  rw [Statement.continuation, hcodeless, if_neg Bool.false_ne_true, hresumed,
    Statement.beforeContinuation?_trim h.segment hends.gap hends.tail]

theorem continuation_last (hne : s.segment ≠ []) (hend : s.segment.getLast? ≠ some '&')
    (rest : List Line) :
    ∃ back more, (Statement.continuation (s.line false :: rest)).1 = (s.segment ++ back) :: more := by
  obtain ⟨hcodeless, hresumed⟩ := resumedCode_line_of_isCode h hcode false
  rw [h.segment.trim_append hne] at hresumed
  rw [Statement.continuation, hcodeless, if_neg Bool.false_ne_true, hresumed]
  split
  · rename_i piece hpiece
    obtain ⟨front, hfront, rfl⟩ := Statement.eq_append_of_beforeContinuation? hpiece
    rcases List.append_eq_append_iff.mp hfront with ⟨back, rfl, -⟩ | ⟨last, hsegment, hlast⟩
    · exact ⟨Text.trimEnd back, _, by rw [Text.trimEnd_append hne h.segment.2]⟩
    · -- The segment does not end in the ampersand, so it is all that stands in front of it.
      cases last with
      | nil =>
          rw [List.append_nil] at hsegment
          rw [← hsegment]
          exact ⟨[], _, by rw [Text.trimEnd, Text.dropEndWhile_eq_self h.segment.2, List.append_nil]⟩
      | cons c last =>
          obtain ⟨rfl, hnil⟩ := List.cons.inj hlast
          rw [(List.append_eq_nil_iff.mp hnil.symm).1] at hsegment
          exact absurd (by rw [hsegment, List.getLast?_concat]) hend
  · exact ⟨_, [], rfl⟩

end Kept

end SegmentLine

/-- A quote stands somewhere in front of every exclamation mark. -/
def QuotesMarks (s : List Char) : Prop :=
  ∀ before after, s = before ++ '!' :: after → ∃ c ∈ before, isQuote c = true

theorem Line.IsCode.quotesMarks {s : List Char} (h : Line.IsCode s) : QuotesMarks s := by
  intro before after heq
  by_contra hquote
  have hnone : ∀ c ∈ before, isQuote c = false := by simpa using hquote
  have hsome := h before after heq
  rw [foldl_nextQuote_eq_none hnone] at hsome
  cases hsome

theorem QuotesMarks.append {s t : List Char} (hs : QuotesMarks s) (ht : QuotesMarks t) :
    QuotesMarks (s ++ t) := by
  intro before after heq
  rcases List.append_eq_append_iff.mp heq with ⟨back, rfl, hback⟩ | ⟨back, hback, hafter⟩
  · obtain ⟨c, hc, hquote⟩ := ht back after hback
    exact ⟨c, List.mem_append_right _ hc, hquote⟩
  · cases back with
    | nil =>
        obtain ⟨c, hc, -⟩ := ht [] after hafter.symm
        cases hc
    | cons c back =>
        obtain ⟨rfl, -⟩ := List.cons.inj hafter
        exact hs before back hback

theorem exists_joinWith_eq {piece : List Char} {more : List (List Char)}
    (h : ∀ later ∈ more, Line.IsCode later) :
    ∃ back, Text.joinWith [' '] (piece :: more) = piece ++ back ∧ QuotesMarks back := by
  have hspace : QuotesMarks [' '] := Line.IsCode.quotesMarks (by decide)
  induction more generalizing piece with
  | nil => exact ⟨[], (List.append_nil piece).symm, Line.IsCode.quotesMarks (by decide)⟩
  | cons next more ih =>
      rw [List.forall_mem_cons] at h
      obtain ⟨back, heq, hback⟩ := @ih next h.2
      refine ⟨[' '] ++ (next ++ back), ?_, hspace.append (h.1.quotesMarks.append hback)⟩
      rw [Text.joinWith_cons piece (by simp), heq, List.append_assoc]

theorem SegmentLine.not_isPrefix_of_not_isCode {s : SegmentLine} (h : s.StartsSegment)
    (hcode : ¬Line.IsCode s.segment) (continued : Bool) (later : List (List Char)) (rest : List Line) :
    ¬Text.joinWith [' '] (s.segment :: later) <+:
      Text.joinWith [' '] (Statement.continuation (s.line continued :: rest)).1 := by
  obtain ⟨piece, gap, cut, more, hpieces, hmore, hsegment, hgap⟩ := continuation_cut h hcode continued rest
  obtain ⟨back, hjoin, hback⟩ := @exists_joinWith_eq piece more hmore
  intro hprefix
  have hread := (Text.isPrefix_joinWith [' '] s.segment later).trans hprefix
  rw [hpieces, hjoin, hsegment, List.prefix_append_right_inj] at hread
  obtain ⟨unread, hunread⟩ := hread
  obtain ⟨c, hc, hquote⟩ := hback gap (cut ++ unread) (by rw [← hunread]; simp)
  rw [hgap c hc] at hquote
  cases hquote

theorem SegmentLine.continuation_ne_nil {s : SegmentLine} (h : s.StartsSegment) (continued : Bool)
    (rest : List Line) : (Statement.continuation (s.line continued :: rest)).1 ≠ [] := by
  by_cases hcode : Line.IsCode s.segment
  · rw [Statement.continuation, (resumedCode_line_of_isCode h hcode continued).1, if_neg Bool.false_ne_true]
    split <;> simp
  · obtain ⟨piece, -, -, more, hpieces, -⟩ := continuation_cut h hcode continued rest
    rw [hpieces]
    exact List.cons_ne_nil _ _

namespace StatementLayout

variable {middle : List (List Line × SegmentLine)} {last : List Line × SegmentLine}

theorem linesOf_cons (p : List Line × SegmentLine) {more : List (List Line × SegmentLine)}
    (hne : more ≠ []) : linesOf (p :: more) = p.1 ++ p.2.line true :: linesOf more := by
  cases more with
  | nil => cases hne rfl
  | cons next rest => rfl

section Resumed

variable (hmiddle : ∀ p ∈ middle,
    (∀ line ∈ p.1, Line.isCodeless line = true) ∧ p.2.StartsSegment ∧ p.2.EndsOpen)
  (hbetween : ∀ line ∈ last.1, Line.isCodeless line = true) (hlast : last.2.StartsSegment)
include hmiddle hbetween hlast

theorem continuation_linesOf_ne_nil (after : List Line) :
    (Statement.continuation (linesOf (middle ++ [last]) ++ after)).1 ≠ [] := by
  cases middle with
  | nil =>
      rw [List.nil_append, linesOf, List.append_assoc, Statement.continuation_append hbetween]
      exact SegmentLine.continuation_ne_nil hlast _ _
  | cons p middle =>
      obtain ⟨hcodeless, hstart, -⟩ := hmiddle p List.mem_cons_self
      rw [List.cons_append, linesOf, List.append_assoc, Statement.continuation_append hcodeless]
      exact SegmentLine.continuation_ne_nil hstart _ _

/-- The parts of lines that go on are all in the statement exactly when each of them is code. -/
theorem joinWith_isPrefix_continuation_iff (hne : last.2.segment ≠ [])
    (hend : last.2.segment.getLast? ≠ some '&') (after : List Line) :
    Text.joinWith [' '] ((middle ++ [last]).map fun p => p.2.segment) <+:
        Text.joinWith [' '] (Statement.continuation (linesOf (middle ++ [last]) ++ after)).1 ↔
      ∀ p ∈ middle ++ [last], Line.IsCode p.2.segment := by
  induction middle with
  | nil =>
      rw [List.nil_append, linesOf, linesOf, List.append_assoc, List.isEmpty_nil, Bool.not_true,
        Statement.continuation_append hbetween, List.map_singleton, List.forall_mem_singleton,
        List.cons_append, List.nil_append]
      constructor
      · intro hprefix
        by_contra hcode
        exact SegmentLine.not_isPrefix_of_not_isCode hlast hcode false [] after hprefix
      · intro hcode
        obtain ⟨back, more, hpieces⟩ := SegmentLine.continuation_last hlast hcode hne hend after
        rw [hpieces, Text.joinWith]
        exact (List.prefix_append _ back).trans (Text.isPrefix_joinWith _ _ _)
  | cons p middle ih =>
      rw [List.forall_mem_cons] at hmiddle
      obtain ⟨⟨hcodeless, hstart, hends⟩, hmiddle⟩ := hmiddle
      have hlater := continuation_linesOf_ne_nil hmiddle hbetween hlast after
      rw [List.cons_append, linesOf_cons p (by simp), List.append_assoc,
        Statement.continuation_append hcodeless, List.map_cons, List.forall_mem_cons, List.cons_append]
      by_cases hcode : Line.IsCode p.2.segment
      · rw [SegmentLine.continuation_kept hstart hcode hends, Text.joinWith_cons _ (by simp),
          Text.joinWith_cons _ hlater, List.prefix_append_right_inj, ih hmiddle]
        exact (and_iff_right hcode).symm
      · refine iff_of_false ?_ fun h => hcode h.1
        exact SegmentLine.not_isPrefix_of_not_isCode hstart hcode true _ _

end Resumed

end StatementLayout

/-- The line with an ampersand in front of it. -/
def SegmentLine.asResumed (s : SegmentLine) : SegmentLine :=
  { s with indent := [], resumed := some s.indent }

theorem SegmentLine.line_asResumed {s : SegmentLine} (h : s.resumed = none) (continued : Bool) :
    s.asResumed.line continued = '&' :: s.line continued := by
  rw [line, line, codeText, codeText, resumption, resumption, h]
  rfl

/-- A string that starts on one line of a statement and ends on another. -/
structure BrokenString where
  /-- The lines of the statement in front of the one on which the string starts. -/
  before : List Line := []
  mark : Char
  /-- The code in front of the string on its first line. -/
  front : List Char := []
  opening : SegmentLine
  /-- The lines on which the string goes on, each with the lines without code in front of it. -/
  middle : List (List Line × SegmentLine) := []
  /-- The line on which the string ends. What stands on it behind the string is its tail. -/
  last : List Line × SegmentLine

namespace BrokenString

def lines (s : BrokenString) : List Line :=
  s.before ++ s.opening.line true :: StatementLayout.linesOf (s.middle ++ [s.last])

/-- The parts of the string on the lines on which it goes on. -/
def resumedParts (s : BrokenString) : List (List Char) :=
  (s.middle ++ [s.last]).map fun p => p.2.segment

/-- The parts of the string on its lines, the first with the code in front of it. -/
def parts (s : BrokenString) : List (List Char) := s.opening.segment :: s.resumedParts

/-- The statement up to the end of the string, with single spaces where it is broken. -/
def text (s : BrokenString) : List Char :=
  Text.trimStart (Text.joinWith [' '] (Statement.pieces s.before ++ s.parts))

/-- The lines in front go on with the statement and leave no quote open. The string starts behind them,
goes on behind an ampersand on each further line, and ends where its quote is closed. -/
structure IsValid (s : BrokenString) : Prop where
  before : ∀ line ∈ Statement.resumeFirst s.before, Statement.GoesOn line
  outside : Line.IsClosedCode (Text.joinWith [' '] (Statement.pieces s.before ++ [s.front]))
  mark : isQuote s.mark = true
  opens : ∃ head, s.opening.segment = s.front ++ s.mark :: head ∧ Line.IsQuoted s.mark head
  first : s.before = [] → s.opening.resumed = none ∧ s.opening.asResumed.StartsSegment
  opening : s.before ≠ [] → s.opening.StartsSegment
  endsOpen : s.opening.EndsOpen
  middle : ∀ p ∈ s.middle,
    (∀ line ∈ p.1, Line.isCodeless line = true) ∧ p.2.StartsSegment ∧ p.2.EndsOpen
  within : ∀ p ∈ s.middle, p.2.resumed.isSome = true ∧ Line.IsQuoted s.mark p.2.segment
  between : ∀ line ∈ s.last.1, Line.isCodeless line = true
  last : s.last.2.StartsSegment ∧ s.last.2.resumed.isSome = true
  closes : ∃ text, s.last.2.segment = text ++ [s.mark] ∧ Line.IsQuoted s.mark text

variable {s : BrokenString}

theorem IsValid.exists_start (h : s.IsValid) (after : List Line) :
    ∃ start : SegmentLine, start.StartsSegment ∧ start.EndsOpen ∧ start.segment = s.opening.segment ∧
      Statement.pieces (s.lines ++ after) = Statement.pieces s.before ++ (Statement.continuation
        (start.line true :: (StatementLayout.linesOf (s.middle ++ [s.last]) ++ after))).1 := by
  have hbefore := Statement.continuation_append_of_goesOn h.before
  rw [Statement.pieces, Statement.pieces, lines]
  cases hlines : s.before with
  | nil =>
      obtain ⟨hunresumed, hstart⟩ := h.first hlines
      refine ⟨s.opening.asResumed, hstart, ⟨h.endsOpen.gap, h.endsOpen.tail, h.endsOpen.comment⟩, rfl, ?_⟩
      rw [SegmentLine.line_asResumed hunresumed]
      rfl
  | cons first before =>
      refine ⟨s.opening, h.opening (by simp [hlines]), h.endsOpen, rfl, ?_⟩
      rw [hlines] at hbefore
      rw [← hbefore, List.append_assoc]
      rfl

theorem IsValid.last_ne_nil (h : s.IsValid) : s.last.2.segment ≠ [] := by
  obtain ⟨text, hsegment, -⟩ := h.closes
  simp [hsegment]

theorem IsValid.getLast?_last (h : s.IsValid) : s.last.2.segment.getLast? = some s.mark := by
  obtain ⟨text, hsegment, -⟩ := h.closes
  rw [hsegment, List.getLast?_concat]

theorem IsValid.getLast?_last_ne (h : s.IsValid) : s.last.2.segment.getLast? ≠ some '&' := by
  rw [h.getLast?_last]
  intro hmark
  have hquote := h.mark
  rw [Option.some.inj hmark] at hquote
  cases hquote

theorem IsValid.isBlank_mark (h : s.IsValid) : Text.isBlank s.mark = false := by
  by_contra hblank
  have hquote := (Line.not_mark_of_isBlank (Bool.not_eq_false _ ▸ hblank)).2
  rw [h.mark] at hquote
  cases hquote

theorem IsValid.getLast?_joinWith (h : s.IsValid) (front : List (List Char)) :
    (Text.joinWith [' '] (front ++ s.resumedParts)).getLast? = some s.mark := by
  rw [resumedParts, List.map_append, List.map_singleton, ← List.append_assoc,
    Text.getLast?_joinWith_concat _ h.last_ne_nil, h.getLast?_last]

theorem IsValid.trimStart_isPrefix_trim_iff (h : s.IsValid) {start : List Char}
    (hstart : Text.isBlankText start = false) (front : List (List Char)) (t : List Char) :
    Text.trimStart (start ++ Text.joinWith [' '] (front ++ s.resumedParts)) <+: Text.trim (start ++ t) ↔
      Text.joinWith [' '] (front ++ s.resumedParts) <+: t := by
  have hlast := h.getLast?_joinWith front
  apply Text.trimStart_isPrefix_trim_iff hstart
  · intro hnil
    rw [hnil] at hlast
    cases hlast
  · intro c hc
    rw [hlast] at hc
    rw [← Option.some.inj hc]
    exact h.isBlank_mark

theorem IsValid.isCode_opening (h : s.IsValid)
    (hblank : Text.isBlankText ((Statement.pieces s.before).flatMap (· ++ [' '])) = true) :
    Line.IsCode s.opening.segment := by
  obtain ⟨head, hsegment, hhead⟩ := h.opens
  have houtside := h.outside
  rw [Text.joinWith_append _ _ (by simp), Text.joinWith] at houtside
  rw [hsegment]
  exact ((Line.isClosedCode_blank hblank).of_append houtside).isCode_append_quoted h.mark hhead

theorem IsValid.isBlankText_opening (h : s.IsValid) (start : List Char) :
    Text.isBlankText (start ++ (s.opening.segment ++ [' '])) = false := by
  obtain ⟨head, hopens, -⟩ := h.opens
  rw [← Bool.not_eq_true]
  intro hall
  have hmark := List.all_eq_true.mp hall s.mark (by simp [hopens])
  rw [h.isBlank_mark] at hmark
  cases hmark

/-- The statement has the whole string exactly when each exclamation mark of the parts stands in quotes even
for a reader of its own line alone. -/
theorem text_isPrefix_join_iff (h : s.IsValid) {first : Line} {rest after : List Line}
    (hlines : first :: rest = s.lines ++ after) :
    s.text <+: (Statement.join first rest).1 ↔ ∀ part ∈ s.parts, Line.IsCode part := by
  obtain ⟨start, hstart, hends, hsegment, hpieces⟩ := h.exists_start after
  rw [Statement.join_eq_trim_pieces, hlines, hpieces, text, parts,
    Text.joinWith_append _ _ (SegmentLine.continuation_ne_nil hstart _ _),
    Text.joinWith_append _ _ (List.cons_ne_nil _ _)]
  cases hblank : Text.isBlankText ((Statement.pieces s.before).flatMap (· ++ [' '])) with
  | true =>
      -- The first part is read whole, and it is no blank text.
      have hopening := h.isCode_opening hblank
      have hlater := StatementLayout.continuation_linesOf_ne_nil h.middle h.between h.last.1 after
      rw [SegmentLine.continuation_kept hstart (hsegment ▸ hopening) hends, hsegment,
        Text.joinWith_cons _ (by simp [resumedParts]), Text.joinWith_cons _ hlater,
        ← List.append_assoc _ (s.opening.segment ++ [' ']),
        ← List.append_assoc _ (s.opening.segment ++ [' ']), List.forall_mem_cons, and_iff_right hopening]
      have hiff := h.trimStart_isPrefix_trim_iff
        (h.isBlankText_opening ((Statement.pieces s.before).flatMap (· ++ [' ']))) []
      rw [List.nil_append] at hiff
      rw [hiff, resumedParts, List.forall_mem_map]
      exact StatementLayout.joinWith_isPrefix_continuation_iff h.middle h.between h.last.1 h.last_ne_nil
          h.getLast?_last_ne after
  | false =>
      have hparts : ∀ p ∈ ([], start) :: s.middle,
          (∀ line ∈ p.1, Line.isCodeless line = true) ∧ p.2.StartsSegment ∧ p.2.EndsOpen :=
        List.forall_mem_cons.mpr ⟨⟨by simp, hstart, hends⟩, h.middle⟩
      have hread := StatementLayout.joinWith_isPrefix_continuation_iff hparts h.between h.last.1
        h.last_ne_nil h.getLast?_last_ne after
      rw [List.cons_append, StatementLayout.linesOf_cons _ (by simp), List.map_cons, hsegment,
        List.forall_mem_cons, hsegment] at hread
      have hiff := h.trimStart_isPrefix_trim_iff hblank [s.opening.segment]
      rw [List.singleton_append] at hiff
      rw [hiff, List.forall_mem_cons, resumedParts, List.forall_mem_map]
      exact hread

/-- A string with an exclamation mark on the line on which it ends. -/
def brokenNote : BrokenString :=
  { mark := '\x27'
    front := "a = ".toList
    opening := { segment := "a = 'x".toList, gap := " ".toList }
    last := ([], { resumed := some [], segment := "y ! z'".toList }) }

theorem isValid_brokenNote : brokenNote.IsValid where
  before := by decide
  outside := by decide
  mark := rfl
  opens := ⟨"x".toList, rfl, by decide⟩
  first _ := ⟨rfl, rfl, by decide, by decide, by simp [SegmentLine.asResumed]⟩
  opening h := absurd rfl h
  endsOpen := ⟨rfl, rfl, rfl⟩
  middle := by simp [brokenNote]
  within := by simp [brokenNote]
  between := by simp [brokenNote]
  last := ⟨⟨rfl, by decide, by decide, by simp [brokenNote]⟩, rfl⟩
  closes := ⟨"y ! z".toList, rfl, by decide⟩

theorem text_isPrefix_join_brokenNote :
    brokenNote.IsValid ∧
      ["a = 'x &".toList, "&y ! z'".toList] = brokenNote.lines ++ [] ∧
      brokenNote.text = "a = 'x y ! z'".toList ∧
      (brokenNote.text <+: (Statement.join "a = 'x &".toList ["&y ! z'".toList]).1 ↔
        ∀ part ∈ brokenNote.parts, Line.IsCode part) :=
  ⟨isValid_brokenNote, by decide, by decide,
    @text_isPrefix_join_iff brokenNote isValid_brokenNote _ _ [] (by decide)⟩

/-- The statement may lose what stands behind an exclamation mark of the string. -/
theorem not_forall_part_isInfix_join :
    ¬∀ (s : BrokenString) (first : Line) (rest after : List Line), s.IsValid →
      first :: rest = s.lines ++ after → ∀ part ∈ s.parts, part <:+: (Statement.join first rest).1 := by
  intro h
  have hjoin : Statement.join "a = 'x &".toList ["&y ! z'".toList] = ("a = 'x y".toList, 1) := by decide
  have hpart := h brokenNote "a = 'x &".toList ["&y ! z'".toList] [] isValid_brokenNote (by decide)
    "y ! z'".toList (by decide)
  rw [hjoin] at hpart
  have hmark : '!' ∈ "a = 'x y".toList := hpart.mem (by decide)
  revert hmark
  decide

end BrokenString

end NamelistCatalog
