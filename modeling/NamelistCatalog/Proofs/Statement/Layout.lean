import Mathlib.Data.List.TakeWhile
import Mathlib.Tactic.ByContra
import Mathlib.Tactic.MkIffOfInductiveProp
import NamelistCatalog.Proofs.Statement.Line

namespace NamelistCatalog

/-- A piece of a statement that may stand on a line of its own. -/
@[mk_iff]
structure IsSegment (s : List Char) : Prop where
  ne_nil : s ≠ []
  trimmed : Text.IsTrimmed s
  code : Line.IsClosedCode s
  noAmpersand : s.getLast? ≠ some '&'

/-- One line of a layout. -/
structure SegmentLine where
  indent : List Char := []
  /-- The blanks behind the ampersand in front of the segment, if there is such an ampersand. -/
  resumed : Option (List Char) := none
  segment : List Char
  /-- The blanks between the segment and the ampersand behind it. -/
  gap : List Char := []
  /-- The blanks at the end of the code. -/
  tail : List Char := []
  comment : Option (List Char) := none

namespace SegmentLine

def resumption (s : SegmentLine) : List Char :=
  match s.resumed with
  | none => []
  | some blanks => '&' :: blanks

/-- The segment, with the ampersand behind it when another segment follows. -/
def core (s : SegmentLine) (continued : Bool) : List Char :=
  s.segment ++ if continued then s.gap ++ ['&'] else []

def codeText (s : SegmentLine) (continued : Bool) : List Char :=
  s.indent ++ (s.resumption ++ (s.core continued ++ s.tail))

def commentText (s : SegmentLine) : List Char :=
  match s.comment with
  | none => []
  | some text => '!' :: text

def line (s : SegmentLine) (continued : Bool) : Line := s.codeText continued ++ s.commentText

@[mk_iff]
structure IsLaidOut (s : SegmentLine) : Prop where
  indent : Text.isBlankText s.indent = true
  resumed : ∀ blanks ∈ s.resumed, Text.isBlankText blanks = true
  segment : IsSegment s.segment
  gap : Text.isBlankText s.gap = true
  tail : Text.isBlankText s.tail = true

/-- The line goes on with a statement: its segment does not start with an ampersand of its own, which
would be taken for the one in front. -/
@[mk_iff]
structure Resumes (s : SegmentLine) : Prop where
  laidOut : s.IsLaidOut
  start : s.segment.head? ≠ some '&'

end SegmentLine

/-- A statement as it is spread over lines: its first line, and the lines that go on with it, each with
the lines without code in front of it. -/
structure StatementLayout where
  first : SegmentLine
  more : List (List Line × SegmentLine) := []

namespace StatementLayout

def linesOf : List (List Line × SegmentLine) → List Line
  | [] => []
  | (between, s) :: rest => between ++ s.line (!rest.isEmpty) :: linesOf rest

def firstLine (l : StatementLayout) : Line := l.first.line (!l.more.isEmpty)

def moreLines (l : StatementLayout) : List Line := linesOf l.more

def lines (l : StatementLayout) : List Line := l.firstLine :: l.moreLines

def segments (l : StatementLayout) : List (List Char) :=
  l.first.segment :: l.more.map fun p => p.2.segment

def text (l : StatementLayout) : List Char := Text.joinWith [' '] l.segments

@[mk_iff]
structure IsValid (l : StatementLayout) : Prop where
  first : l.first.IsLaidOut
  unresumed : l.first.resumed = none
  more : ∀ p ∈ l.more, (∀ line ∈ p.1, Line.isCodeless line = true) ∧ p.2.Resumes

end StatementLayout

/-! The conditions on a layout can be tested. -/

instance (s : List Char) : Decidable (Line.IsClosedCode s) :=
  decidable_of_iff (Line.IsCode s ∧ s.foldl nextQuote none = none)
    ⟨fun h => ⟨h.1, h.2⟩, fun h => ⟨h.code, h.closed⟩⟩

instance (s : List Char) : Decidable (IsSegment s) := decidable_of_iff' _ (isSegment_iff s)

instance (s : SegmentLine) : Decidable s.IsLaidOut := decidable_of_iff' _ s.isLaidOut_iff

instance (s : SegmentLine) : Decidable s.Resumes := decidable_of_iff' _ s.resumes_iff

instance (l : StatementLayout) : Decidable l.IsValid := decidable_of_iff' _ l.isValid_iff

namespace Line

theorem not_mark_of_isBlank {c : Char} (h : Text.isBlank c = true) : c ≠ '!' ∧ isQuote c = false := by
  have hne : ∀ d, Text.isBlank d = false → c ≠ d := by
    rintro d hd rfl
    rw [h] at hd
    cases hd
  refine ⟨hne '!' (by decide), ?_⟩
  simp [isQuote, hne '\x27' (by decide), hne '\x22' (by decide)]

theorem isClosedCode_blank {s : List Char} (h : Text.isBlankText s = true) : IsClosedCode s :=
  isClosedCode_of_forall fun c hc => not_mark_of_isBlank (List.all_eq_true.mp h c hc)

theorem code_append_comment {s : List Char} (hs : IsClosedCode s) (text : List Char) :
    code (s ++ '!' :: text) = s := by
  rw [code, codeAfter_append (code_eq_self_iff.mpr hs.code), hs.closed]
  simp [codeAfter]

theorem isCodeless_eq_false {line : Line} (h : Text.trim line.code ≠ []) :
    line.isCodeless = false := by
  by_contra hcodeless
  have hblank : Text.isBlankText line.code = true := by
    rw [Bool.not_eq_false, isCodeless, Bool.or_eq_true] at hcodeless
    rcases hcodeless with hblank | hcomment
    · rw [Text.isBlankText, List.all_eq_true] at hblank ⊢
      exact fun c hc => hblank c (line.code_isPrefix.mem hc)
    · rw [isComment, beq_iff_eq, List.head?_eq_some_iff] at hcomment
      obtain ⟨text, htext⟩ := hcomment
      have hline : line = line.takeWhile Text.isBlank ++ '!' :: text := by
        rw [← htext, Text.trimStart, List.takeWhile_append_dropWhile]
      have hindent : Text.isBlankText (line.takeWhile Text.isBlank) = true := List.all_takeWhile
      rw [hline, code_append_comment (isClosedCode_blank hindent)]
      exact hindent
  rw [Text.trim, Text.trimStart_eq_nil hblank] at h
  exact h rfl

end Line

namespace SegmentLine

variable {s : SegmentLine}

theorem core_ne_nil (h : s.IsLaidOut) (continued : Bool) : s.core continued ≠ [] :=
  List.append_ne_nil_of_left_ne_nil h.segment.ne_nil _

theorem isTrimmed_core (h : s.IsLaidOut) (continued : Bool) : Text.IsTrimmed (s.core continued) := by
  cases continued with
  | false =>
      rw [core, if_neg Bool.false_ne_true, List.append_nil]
      exact h.segment.trimmed
  | true =>
      apply Text.isTrimmed_append h.segment.ne_nil (by simp) h.segment.trimmed.1
      rw [if_pos rfl, List.getLast?_concat]
      rintro c ⟨⟩
      decide

theorem isClosedCode_core (h : s.IsLaidOut) (continued : Bool) :
    Line.IsClosedCode (s.core continued) := by
  apply h.segment.code.append
  cases continued with
  | false => exact Line.isClosedCode_blank rfl
  | true => exact (Line.isClosedCode_blank h.gap).append (Line.isClosedCode_of_all (by decide))

theorem isClosedCode_codeText (h : s.IsLaidOut) (continued : Bool) :
    Line.IsClosedCode (s.codeText continued) := by
  have hresumption : Line.IsClosedCode s.resumption := by
    unfold resumption
    split
    · exact Line.isClosedCode_blank rfl
    · rename_i blanks hblanks
      have hmark : Line.IsClosedCode ['&'] := Line.isClosedCode_of_all (by decide)
      exact hmark.append (Line.isClosedCode_blank (h.resumed blanks hblanks))
  exact (Line.isClosedCode_blank h.indent).append (hresumption.append
    ((isClosedCode_core h continued).append (Line.isClosedCode_blank h.tail)))

theorem code_line (h : s.IsLaidOut) (continued : Bool) :
    (s.line continued).code = s.codeText continued := by
  rw [line, commentText]
  split
  · rw [List.append_nil]
    exact Line.code_eq_self_iff.mpr (isClosedCode_codeText h continued).code
  · exact Line.code_append_comment (isClosedCode_codeText h continued) _

theorem trim_code_line (h : s.IsLaidOut) (continued : Bool) :
    Text.trim (s.line continued).code = s.resumption ++ s.core continued := by
  have htrimmed : Text.IsTrimmed (s.resumption ++ s.core continued) := by
    unfold resumption
    split
    · exact isTrimmed_core h continued
    · refine Text.isTrimmed_append (by simp) (core_ne_nil h continued) ?_ (isTrimmed_core h continued).2
      rintro c ⟨⟩
      decide
  have hne := List.append_ne_nil_of_right_ne_nil s.resumption (core_ne_nil h continued)
  rw [code_line h, codeText, ← List.append_assoc s.resumption]
  exact Text.trim_surrounded h.indent htrimmed hne h.tail

theorem isCodeless_line (h : s.IsLaidOut) (continued : Bool) :
    (s.line continued).isCodeless = false := by
  apply Line.isCodeless_eq_false
  rw [trim_code_line h]
  exact List.append_ne_nil_of_right_ne_nil s.resumption (core_ne_nil h continued)

theorem resumedCode_line (h : s.Resumes) (continued : Bool) :
    Statement.resumedCode (s.line continued) = s.core continued := by
  rw [Statement.resumedCode, trim_code_line h.laidOut, resumption]
  cases hresumed : s.resumed with
  | none =>
      dsimp only
      rw [List.nil_append]
      split
      · rename_i rest hcore
        have hstart : (s.core continued).head? = s.segment.head? := by
          rw [core, List.head?_append, List.head?_eq_some_head h.laidOut.segment.ne_nil, Option.some_or]
        rw [hcore] at hstart
        exact absurd hstart.symm h.start
      · rfl
  | some blanks =>
      change Text.trimStart (blanks ++ s.core continued) = s.core continued
      rw [Text.trimStart_append_of_blank (h.laidOut.resumed blanks hresumed)]
      exact Text.dropWhile_eq_self (isTrimmed_core h.laidOut continued).1

theorem beforeContinuation?_core (h : s.IsLaidOut) (continued : Bool) :
    Statement.beforeContinuation? (s.core continued) =
      if continued then some s.segment else none := by
  cases continued with
  | false =>
      rw [core, if_neg Bool.false_ne_true, List.append_nil, Statement.beforeContinuation?,
        Text.dropEnd?_eq_none]
      · rfl
      · rintro ⟨before, hbefore⟩
        have hend := h.segment.noAmpersand
        rw [← hbefore] at hend
        exact hend List.getLast?_concat
  | true =>
      rw [core, if_pos rfl, ← List.append_assoc, Statement.beforeContinuation?, Text.dropEnd?_append,
        Option.map_some, Text.trimEnd_append_of_blank h.gap, Text.trimEnd,
        Text.dropEndWhile_eq_self h.segment.trimmed.2]
      rfl

end SegmentLine

namespace Statement

theorem continuation_append {between : List Line}
    (h : ∀ line ∈ between, Line.isCodeless line = true) (rest : List Line) :
    continuation (between ++ rest) =
      ((continuation rest).1, (continuation rest).2 + between.length) := by
  induction between with
  | nil => rfl
  | cons line between ih =>
      rw [List.forall_mem_cons] at h
      rw [List.cons_append, continuation, if_pos h.1, ih h.2]
      rfl

/-- The lines that go on with a statement give its segments, and no line behind them is touched. -/
theorem continuation_linesOf {more : List (List Line × SegmentLine)} (hne : more ≠ [])
    (h : ∀ p ∈ more, (∀ line ∈ p.1, Line.isCodeless line = true) ∧ p.2.Resumes) (rest : List Line) :
    continuation (StatementLayout.linesOf more ++ rest) =
      (more.map fun p => p.2.segment, (StatementLayout.linesOf more).length) := by
  induction more with
  | nil => cases hne rfl
  | cons p more ih =>
      obtain ⟨between, s⟩ := p
      rw [List.forall_mem_cons] at h
      obtain ⟨⟨hbetween, hs⟩, hmore⟩ := h
      have hcode : ¬(s.line (!more.isEmpty)).isCodeless = true := by
        rw [SegmentLine.isCodeless_line hs.laidOut]
        exact Bool.false_ne_true
      have hline : continuation (s.line (!more.isEmpty) :: (StatementLayout.linesOf more ++ rest)) =
          (s.segment :: more.map fun p => p.2.segment, (StatementLayout.linesOf more).length + 1) := by
        rw [continuation, if_neg hcode, SegmentLine.resumedCode_line hs,
          SegmentLine.beforeContinuation?_core hs.laidOut]
        cases more with
        | nil => simp [SegmentLine.core, StatementLayout.linesOf]
        | cons next more =>
            rw [List.isEmpty_cons, Bool.not_false, if_pos rfl]
            dsimp only
            rw [ih (by simp) hmore]
      rw [StatementLayout.linesOf, List.append_assoc, List.cons_append, continuation_append hbetween,
        hline, List.length_append, List.length_cons, List.map_cons]
      exact Prod.ext rfl (Nat.add_comm _ _)

end Statement

theorem isSegment_joinWith {parts : List (List Char)} (hne : parts ≠ [])
    (h : ∀ part ∈ parts, IsSegment part) : IsSegment (Text.joinWith [' '] parts) := by
  induction parts with
  | nil => cases hne rfl
  | cons first more ih =>
      rw [List.forall_mem_cons] at h
      cases more with
      | nil => exact h.1
      | cons second rest =>
          have hmore := ih (by simp) h.2
          have hspace : Line.IsClosedCode [' '] := Line.isClosedCode_of_all (by decide)
          have hright : ([' '] ++ Text.joinWith [' '] (second :: rest)).getLast? =
              (Text.joinWith [' '] (second :: rest)).getLast? :=
            Text.getLast?_append_right hmore.ne_nil
          rw [Text.joinWith, List.append_assoc]
          refine ⟨List.append_ne_nil_of_left_ne_nil h.1.ne_nil _, ?_,
            h.1.code.append (hspace.append hmore.code), ?_⟩
          · apply Text.isTrimmed_append h.1.ne_nil (by simp) h.1.trimmed.1
            rw [hright]
            exact hmore.trimmed.2
          · rw [Text.getLast?_append_right (by simp), hright]
            exact hmore.noAmpersand

namespace StatementLayout

variable {l : StatementLayout}

theorem IsValid.isSegment_text (h : l.IsValid) : IsSegment l.text := by
  apply isSegment_joinWith (by simp [segments])
  intro part hpart
  rcases List.mem_cons.mp hpart with rfl | hpart
  · exact h.first.segment
  · obtain ⟨p, hp, rfl⟩ := List.mem_map.mp hpart
    exact (h.more p hp).2.laidOut.segment

theorem IsValid.join_eq (h : l.IsValid) (rest : List Line) :
    Statement.join l.firstLine (l.moreLines ++ rest) = (l.text, l.moreLines.length) := by
  have hcode : Text.trim l.firstLine.code = l.first.core (!l.more.isEmpty) := by
    rw [firstLine, SegmentLine.trim_code_line h.first, SegmentLine.resumption, h.unresumed]
    rfl
  have htext : Text.trim l.text = l.text := Text.trim_eq_self_iff.mpr h.isSegment_text.trimmed
  rw [text, segments] at htext
  rw [Statement.join, hcode, SegmentLine.beforeContinuation?_core h.first, text, segments, moreLines]
  cases hmore : l.more with
  | nil => simp [SegmentLine.core, linesOf, Text.joinWith]
  | cons p more =>
      rw [List.isEmpty_cons, Bool.not_false, if_pos rfl]
      dsimp only
      rw [← hmore, Statement.continuation_linesOf (by simp [hmore]) h.more, htext]

theorem IsValid.ofLinesFrom_eq (h : l.IsValid) (number : Nat) (rest : List Line) :
    CodeLine.ofLinesFrom number (l.lines ++ rest) =
      ⟨number, l.text⟩ :: CodeLine.ofLinesFrom (number + l.lines.length) rest := by
  have hcode : ¬l.firstLine.isCodeless = true := by
    rw [firstLine, SegmentLine.isCodeless_line h.first]
    exact Bool.false_ne_true
  have hsome : l.text.isEmpty = false := List.isEmpty_eq_false_iff.mpr h.isSegment_text.ne_nil
  rw [lines, List.cons_append, CodeLine.ofLinesFrom, if_neg hcode, h.join_eq]
  dsimp only
  rw [hsome, if_neg Bool.false_ne_true, List.drop_left, List.length_cons, Nat.add_assoc,
    Nat.add_comm 1]

def single (s : List Char) : StatementLayout := { first := { segment := s } }

theorem isValid_single {s : List Char} (h : IsSegment s) : (single s).IsValid where
  first := ⟨rfl, by simp [single], h, rfl, rfl⟩
  unresumed := rfl
  more := by simp [single]

theorem lines_single (s : List Char) : (single s).lines = [s] := by
  simp [single, lines, firstLine, moreLines, linesOf, SegmentLine.line, SegmentLine.codeText,
    SegmentLine.resumption, SegmentLine.core, SegmentLine.commentText]

/-- However a statement is laid out, its lines are joined to its segments with single spaces between
them, exactly its lines are taken, and the statement that is read is the one that is read from a single
line. -/
theorem join_eq_text (h : l.IsValid) (rest : List Line) :
    Statement.join l.firstLine (l.moreLines ++ rest) = (l.text, l.moreLines.length) ∧
      ∀ number,
        CodeLine.ofLinesFrom number (l.lines ++ rest) =
            ⟨number, l.text⟩ :: CodeLine.ofLinesFrom (number + l.lines.length) rest ∧
          CodeLine.ofLinesFrom number (l.text :: rest) =
            ⟨number, l.text⟩ :: CodeLine.ofLinesFrom (number + 1) rest := by
  refine ⟨h.join_eq rest, fun number => ⟨h.ofLinesFrom_eq number rest, ?_⟩⟩
  have hsingle := (isValid_single h.isSegment_text).ofLinesFrom_eq number rest
  rw [lines_single] at hsingle
  exact hsingle

/-- Three segments with an exclamation mark in quotes, ampersands on both sides, comments of which one
ends in an ampersand, and lines without code in between. -/
def threeSegments : StatementLayout :=
  { first :=
      { indent := "  ".toList
        segment := "a = 'x! &'".toList
        gap := " ".toList
        tail := "\t ".toList
        comment := some " it's &".toList }
    more :=
      [(["".toList, " ! note &".toList],
        { indent := " ".toList, resumed := some "  ".toList, segment := "// \x22'\x22".toList }),
       ([], { indent := "\t".toList, segment := "// b".toList, comment := some "!".toList })] }

theorem join_eq_text_threeSegments :
    threeSegments.IsValid ∧
      threeSegments.lines =
        ["  a = 'x! &' &\t ! it's &".toList, "".toList, " ! note &".toList, " &  // \x22'\x22&".toList,
          "\t// b!!".toList] ∧
      Statement.join threeSegments.firstLine (threeSegments.moreLines ++ ["c = 1".toList]) =
        ("a = 'x! &' // \x22'\x22 // b".toList, 4) := by
  have hvalid : threeSegments.IsValid := by decide +kernel
  refine ⟨hvalid, by decide +kernel, ?_⟩
  rw [(join_eq_text hvalid ["c = 1".toList]).1]
  decide +kernel

end StatementLayout

end NamelistCatalog
