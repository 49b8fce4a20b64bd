import Mathlib.Logic.Function.Iterate
import NamelistCatalog.Proofs.Statement.BrokenString

/-!
Scanning the lines of a document by position, one line after the other. Wherever the scan stands, the
position is in bounds and the spans of the document are those already found and those that the lines from
there on give. So the scan ends, asks for no line that is not there, and takes each line once.
-/

namespace NamelistCatalog

/-- Lines that are taken together, and what they are taken for. -/
structure Span (α : Type) where
  start : Nat
  count : Nat
  /-- Whether the lines were joined to a statement. -/
  joined : Bool
  items : List α

def Span.positions {α : Type} (s : Span α) : List Nat := List.range' s.start s.count

/-- What a kind of document makes of its lines. -/
structure LineReader (α : Type) where
  /-- What a line that starts no statement is taken for, in front of another line, and the number of
  lines that it takes. -/
  skip? : Line → Option Line → Option (List α × Nat)
  /-- What a statement is taken for, given the number of its first line. -/
  read : Nat → List Char → List α
  skip_pos : ∀ {line next items count}, skip? line next = some (items, count) → 0 < count
  skip_le : ∀ {line rest items count},
    skip? line (List.head? rest) = some (items, count) → count ≤ rest.length + 1

/-- Where a scan stands, and the spans that it has found. -/
inductive Scan (α : Type) where
  /-- In front of a line, or at the end. -/
  | between (position : Nat) (spans : List (Span α))
  /-- At a line of the statement that starts at `start`, of which `text` is known. -/
  | joining (start position : Nat) (text : List Char) (spans : List (Span α))
  /-- Behind a line that the statement goes on after. -/
  | skipping (start position : Nat) (text : List Char) (spans : List (Span α))
  | done (spans : List (Span α))
  /-- A line was asked for that is not there. -/
  | fault

namespace LineReader

variable {α : Type} (r : LineReader α) (lines : List Line)

/-- Ends the statement that starts at `start`. -/
def finish (start position : Nat) (text : List Char) (spans : List (Span α)) : Scan α :=
  .between position
    (spans ++ [⟨start, position - start, true, r.read (start + 1) (Text.trim text)⟩])

def step : Scan α → Scan α
  | .between position spans =>
      if position < lines.length then
        match lines[position]? with
        | none => .fault
        | some line =>
            match r.skip? line lines[position + 1]? with
            | some (items, count) =>
                .between (position + count) (spans ++ [⟨position, count, false, items⟩])
            | none => .joining position position [] spans
      else .done spans
  | .joining start position text spans =>
      match lines[position]? with
      | none => .fault
      | some line =>
          let code := if position = start then Text.trim line.code else Statement.resumedCode line
          match Statement.beforeContinuation? code with
          | some piece => .skipping start (position + 1) (text ++ piece ++ [' ']) spans
          | none => r.finish start (position + 1) (text ++ code) spans
  | .skipping start position text spans =>
      if position < lines.length then
        match lines[position]? with
        | none => .fault
        | some line =>
            if line.isCodeless then .skipping start (position + 1) text spans
            else .joining start position text spans
      else r.finish start position text spans
  | .done spans => .done spans
  | .fault => .fault

/-- Where the scan stands after so many steps. -/
def after (steps : Nat) : Scan α := (r.step lines)^[steps] (.between 0 [])

/-! What the scan is to find. -/

def span (position : Nat) (line : Line) (rest : List Line) : Span α :=
  match r.skip? line rest.head? with
  | some (items, count) => ⟨position, count, false, items⟩
  | none =>
      let joined := Statement.join line rest
      ⟨position, joined.2 + 1, true, r.read (position + 1) joined.1⟩

variable {r lines} {position : Nat} {line : Line} {rest : List Line}

theorem span_eq_skipped {items : List α} {count : Nat}
    (h : r.skip? line rest.head? = some (items, count)) :
    r.span position line rest = ⟨position, count, false, items⟩ := by
  rw [span, h]

theorem span_eq_joined (h : r.skip? line rest.head? = none) :
    r.span position line rest = ⟨position, (Statement.join line rest).2 + 1, true,
      r.read (position + 1) (Statement.join line rest).1⟩ := by
  rw [span, h]

theorem start_span : (r.span position line rest).start = position := by
  cases h : r.skip? line rest.head? with
  | none => rw [span_eq_joined h]
  | some skipped => rw [span_eq_skipped h]

theorem count_span_pos : 0 < (r.span position line rest).count := by
  cases h : r.skip? line rest.head? with
  | none =>
      rw [span_eq_joined h]
      exact Nat.succ_pos _
  | some skipped =>
      rw [span_eq_skipped h]
      exact r.skip_pos h

theorem count_span_le : (r.span position line rest).count ≤ rest.length + 1 := by
  cases h : r.skip? line rest.head? with
  | none =>
      rw [span_eq_joined h]
      exact Nat.succ_le_succ (Statement.join_le line rest)
  | some skipped =>
      rw [span_eq_skipped h]
      exact r.skip_le h

variable (r) in
/-- The spans of lines of which the first has this position. -/
def spansFrom (position : Nat) : List Line → List (Span α)
  | [] => []
  | line :: rest =>
      let span := r.span position line rest
      span :: spansFrom (position + span.count) ((line :: rest).drop span.count)
termination_by lines => lines.length
decreasing_by
  have hpos : 0 < (r.span position line rest).count := count_span_pos
  rw [List.length_drop]
  simp only [List.length_cons]
  omega

theorem spansFrom_nil : r.spansFrom position [] = [] := by rw [spansFrom]

theorem spansFrom_cons : r.spansFrom position (line :: rest) =
    r.span position line rest :: r.spansFrom (position + (r.span position line rest).count)
      ((line :: rest).drop (r.span position line rest).count) := by
  rw [spansFrom]

/-- The spans take each line once. -/
theorem flatMap_positions_spansFrom (position : Nat) (lines : List Line) :
    (r.spansFrom position lines).flatMap Span.positions = List.range' position lines.length := by
  fun_induction r.spansFrom position lines with
  | case1 position => rfl
  | case2 position line rest span ih =>
      have hstart : span.start = position := start_span
      have hle : span.count ≤ (line :: rest).length := count_span_le
      have hwhole : List.range' position (line :: rest).length =
          List.range' position span.count ++
            List.range' (position + span.count) ((line :: rest).length - span.count) := by
        rw [List.range'_append_1, Nat.add_sub_cancel' hle]
      rw [List.flatMap_cons, ih, Span.positions, List.length_drop, hstart, hwhole]

theorem exists_of_mem_spansFrom {s : Span α} (h : s ∈ r.spansFrom position lines) :
    ∃ offset line rest, lines.drop offset = line :: rest ∧ s = r.span (position + offset) line rest := by
  fun_induction r.spansFrom position lines with
  | case1 position => cases h
  | case2 position line rest span ih =>
      rcases List.mem_cons.mp h with rfl | h
      · exact ⟨0, line, rest, rfl, rfl⟩
      · obtain ⟨offset, line', rest', hdrop, hs⟩ := ih h
        refine ⟨span.count + offset, line', rest', ?_, ?_⟩
        · rw [← List.drop_drop, hdrop]
        · rw [hs, Nat.add_assoc]

theorem flatMap_items_spansFrom {document : Nat → List Line → List α}
    (hnil : ∀ number, document number [] = [])
    (hcons : ∀ position line rest, document (position + 1) (line :: rest) =
      (r.span position line rest).items ++
        document (position + 1 + (r.span position line rest).count)
          ((line :: rest).drop (r.span position line rest).count)) (position : Nat) (lines : List Line) :
    (r.spansFrom position lines).flatMap Span.items = document (position + 1) lines := by
  fun_induction r.spansFrom position lines with
  | case1 position => exact (hnil _).symm
  | case2 position line rest span ih =>
      rw [List.flatMap_cons, ih, hcons, Nat.add_right_comm position 1]

variable (r lines) in
/-- The spans that the statement which starts at `start` ends with, and those behind it, when `text` is
known of it and the position is behind a line that it goes on after. -/
def resumedSpans (start position : Nat) (text : List Char) : List (Span α) :=
  let more := Statement.continuation (lines.drop position)
  ⟨start, position + more.2 - start, true,
      r.read (start + 1) (Text.trim (text ++ Text.joinWith [' '] more.1))⟩ ::
    r.spansFrom (position + more.2) (lines.drop (position + more.2))

variable (r lines) in
def outcome : Scan α → List (Span α)
  | .between position spans => spans ++ r.spansFrom position (lines.drop position)
  | .joining start position text spans =>
      spans ++ if position = start then r.spansFrom start (lines.drop start)
        else r.resumedSpans lines start position text
  | .skipping start position text spans => spans ++ r.resumedSpans lines start position text
  | .done spans => spans
  | .fault => []

variable (r lines) in
/-- What holds wherever a scan stands. -/
def Valid : Scan α → Prop
  | .between position _ => position ≤ lines.length
  | .joining start position text _ =>
      start ≤ position ∧ ∃ line, lines[position]? = some line ∧
        if position = start then r.skip? line lines[position + 1]? = none ∧ text = []
        else line.isCodeless = false
  | .skipping start position _ _ => start < position ∧ position ≤ lines.length
  | .done _ => True
  | .fault => False

variable (lines) in
/-- The lines that are left, and at one line the order in which a scan passes through its states. -/
def rank : Scan α → Nat
  | .between position _ => 3 * (lines.length - position) + 2
  | .joining _ position _ _ => 3 * (lines.length - position) + 1
  | .skipping _ position _ _ => 3 * (lines.length - position) + 3
  | .done _ => 0
  | .fault => 0

/-- A step that stays in bounds, leads towards the same end and comes nearer to it. -/
structure Advances (r : LineReader α) (lines : List Line) (s s' : Scan α) : Prop where
  valid : r.Valid lines s'
  outcome_eq : r.outcome lines s' = r.outcome lines s
  rank_lt : rank lines s' < rank lines s

theorem drop_eq_cons (h : lines[position]? = some line) :
    lines.drop position = line :: lines.drop (position + 1) := by
  obtain ⟨hposition, rfl⟩ := List.getElem?_eq_some_iff.mp h
  exact List.drop_eq_getElem_cons hposition

theorem lt_length (h : lines[position]? = some line) : position < lines.length :=
  (List.getElem?_eq_some_iff.mp h).1

variable {spans : List (Span α)} {start : Nat} {text piece : List Char}

theorem trim_concat_blank (s : List Char) : Text.trim (s ++ [' ']) = Text.trim s := by
  rw [← Text.trimStart_trimEnd, Text.trimEnd_concat (by decide), Text.trimStart_trimEnd]

theorem trim_append_joinWith (text piece : List Char) (more : List (List Char)) :
    Text.trim (text ++ piece ++ [' '] ++ Text.joinWith [' '] more) =
      Text.trim (text ++ Text.joinWith [' '] (piece :: more)) := by
  by_cases hmore : more = []
  · rw [hmore, Text.joinWith, Text.joinWith, List.append_nil, trim_concat_blank]
  · rw [Text.joinWith_cons piece hmore, ← List.append_assoc, ← List.append_assoc]

theorem resumedSpans_codeless (h : lines[position]? = some line) (hline : line.isCodeless = true) :
    r.resumedSpans lines start position text = r.resumedSpans lines start (position + 1) text := by
  rw [resumedSpans, resumedSpans, drop_eq_cons h, Statement.continuation, if_pos hline]
  dsimp only
  rw [Nat.add_right_comm position 1, ← Nat.add_assoc]

theorem resumedSpans_piece (h : lines[position]? = some line) (hline : line.isCodeless = false)
    (hpiece : Statement.beforeContinuation? (Statement.resumedCode line) = some piece) :
    r.resumedSpans lines start position text =
      r.resumedSpans lines start (position + 1) (text ++ piece ++ [' ']) := by
  rw [resumedSpans, resumedSpans, drop_eq_cons h, Statement.continuation,
    if_neg (Bool.eq_false_iff.mp hline), hpiece, trim_append_joinWith]
  dsimp only
  rw [Nat.add_right_comm position 1, ← Nat.add_assoc]

theorem resumedSpans_last (h : lines[position]? = some line) (hline : line.isCodeless = false)
    (hlast : Statement.beforeContinuation? (Statement.resumedCode line) = none) :
    r.resumedSpans lines start position text =
      ⟨start, position + 1 - start, true,
          r.read (start + 1) (Text.trim (text ++ Statement.resumedCode line))⟩ ::
        r.spansFrom (position + 1) (lines.drop (position + 1)) := by
  rw [resumedSpans, drop_eq_cons h, Statement.continuation, if_neg (Bool.eq_false_iff.mp hline), hlast]
  rfl

theorem advances_between (h : lines[position]? = some line) :
    Advances r lines (.between position spans) (r.step lines (.between position spans)) := by
  have hlt := lt_length h
  rw [step, if_pos hlt, h]
  dsimp only
  cases hskip : r.skip? line lines[position + 1]? with
  | none =>
      dsimp only
      refine ⟨⟨Nat.le_refl _, line, h, ?_⟩, ?_, Nat.lt_succ_self _⟩
      · rw [if_pos rfl]
        exact ⟨hskip, rfl⟩
      · rw [outcome, outcome, if_pos rfl]
  | some skipped =>
      obtain ⟨items, count⟩ := skipped
      have hskip' : r.skip? line (lines.drop (position + 1)).head? = some (items, count) := by
        rw [List.head?_drop, hskip]
      have hpos := r.skip_pos hskip
      have hle := r.skip_le hskip'
      rw [List.length_drop] at hle
      constructor
      · rw [Valid]
        omega
      · rw [outcome, outcome, drop_eq_cons h, spansFrom_cons, span_eq_skipped hskip', ← drop_eq_cons h,
          List.drop_drop, List.append_assoc, List.singleton_append]
      · rw [rank, rank]
        omega

theorem outcome_finish : r.outcome lines (r.finish start position text spans) =
    spans ++ ⟨start, position - start, true, r.read (start + 1) (Text.trim text)⟩ ::
      r.spansFrom position (lines.drop position) := by
  rw [finish, outcome, List.append_assoc, List.singleton_append]

theorem advances_skipping (hstart : start < position) (h : lines[position]? = some line) :
    Advances r lines (.skipping start position text spans)
      (r.step lines (.skipping start position text spans)) := by
  have hlt := lt_length h
  have hne : position ≠ start := Nat.ne_of_gt hstart
  rw [step, if_pos hlt, h]
  dsimp only
  split
  · rename_i hcodeless
    refine ⟨⟨Nat.lt_succ_of_lt hstart, hlt⟩, ?_, ?_⟩
    · rw [outcome, outcome, resumedSpans_codeless h hcodeless]
    · rw [rank, rank]
      omega
  · rename_i hcode
    refine ⟨⟨Nat.le_of_lt hstart, line, h, ?_⟩, ?_, ?_⟩
    · rw [if_neg hne]
      exact Bool.eq_false_iff.mpr hcode
    · rw [outcome, if_neg hne, outcome]
    · rw [rank, rank]
      omega

theorem advances_skipping_end :
    Advances r lines (.skipping start lines.length text spans)
      (r.step lines (.skipping start lines.length text spans)) := by
  rw [step, if_neg (Nat.lt_irrefl _)]
  refine ⟨Nat.le_refl _, ?_, ?_⟩
  · rw [outcome_finish, outcome, resumedSpans, List.drop_length]
    simp [Statement.continuation, Text.joinWith]
  · rw [finish, rank, rank]
    omega

theorem advances_first (h : lines[start]? = some line) (hskip : r.skip? line lines[start + 1]? = none) :
    Advances r lines (.joining start start [] spans) (r.step lines (.joining start start [] spans)) := by
  have hlt := lt_length h
  have hskip' : r.skip? line (lines.drop (start + 1)).head? = none := by
    rw [List.head?_drop, hskip]
  have houtcome : r.outcome lines (.joining start start [] spans) = spans ++
      ⟨start, (Statement.join line (lines.drop (start + 1))).2 + 1, true,
        r.read (start + 1) (Statement.join line (lines.drop (start + 1))).1⟩ ::
      r.spansFrom (start + ((Statement.join line (lines.drop (start + 1))).2 + 1))
        (lines.drop (start + ((Statement.join line (lines.drop (start + 1))).2 + 1))) := by
    rw [outcome, if_pos rfl, drop_eq_cons h, spansFrom_cons, span_eq_joined hskip', ← drop_eq_cons h,
      List.drop_drop]
  rw [step, h]
  dsimp only
  rw [if_pos rfl]
  split
  · rename_i piece hpiece
    refine ⟨⟨Nat.lt_succ_self _, hlt⟩, ?_, ?_⟩
    · rw [houtcome, outcome, resumedSpans, Statement.join, hpiece, trim_append_joinWith,
        List.nil_append]
      dsimp only
      rw [Nat.add_right_comm start 1, ← Nat.add_assoc, Nat.add_assoc start, Nat.add_sub_cancel_left]
    · rw [rank, rank]
      omega
  · rename_i hlast
    refine ⟨hlt, ?_, ?_⟩
    · have htrim : Text.trim (Text.trim line.code) = Text.trim line.code :=
        Text.trim_eq_self_iff.mpr (Text.isTrimmed_trim _)
      rw [houtcome, outcome_finish, Statement.join, hlast, List.nil_append, htrim,
        Nat.add_sub_cancel_left]
    · rw [finish, rank, rank]
      omega

theorem advances_resumed (hstart : start < position) (h : lines[position]? = some line)
    (hcode : line.isCodeless = false) :
    Advances r lines (.joining start position text spans)
      (r.step lines (.joining start position text spans)) := by
  have hlt := lt_length h
  have hne : position ≠ start := Nat.ne_of_gt hstart
  rw [step, h]
  dsimp only
  rw [if_neg hne]
  split
  · rename_i piece hpiece
    refine ⟨⟨Nat.lt_succ_of_lt hstart, hlt⟩, ?_, ?_⟩
    · rw [outcome, outcome, if_neg hne, resumedSpans_piece h hcode hpiece]
    · rw [rank, rank]
      omega
  · rename_i hlast
    refine ⟨hlt, ?_, ?_⟩
    · rw [outcome_finish, outcome, if_neg hne, resumedSpans_last h hcode hlast]
    · rw [finish, rank, rank]
      omega

theorem advances_between_end : Advances r lines (.between lines.length spans)
    (r.step lines (.between lines.length spans)) := by
  rw [step, if_neg (Nat.lt_irrefl _)]
  refine ⟨trivial, ?_, Nat.succ_pos _⟩
  rw [outcome, outcome, List.drop_length, spansFrom_nil, List.append_nil]

/-- Until the scan is done, each step leads on. -/
theorem advances_step {s : Scan α} (h : r.Valid lines s) (hdone : ∀ spans, s ≠ .done spans) :
    Advances r lines s (r.step lines s) := by
  have hline : ∀ {position}, position < lines.length → ∃ line, lines[position]? = some line :=
    fun hlt => ⟨_, List.getElem?_eq_getElem hlt⟩
  cases s with
  | between position spans =>
      rcases Nat.eq_or_lt_of_le h with rfl | hlt
      · exact advances_between_end
      · obtain ⟨line, hline⟩ := hline hlt
        exact advances_between hline
  | joining start position text spans =>
      obtain ⟨hle, line, hline, hstate⟩ := h
      rcases Nat.eq_or_lt_of_le hle with rfl | hlt
      · rw [if_pos rfl] at hstate
        rw [hstate.2]
        exact advances_first hline hstate.1
      · rw [if_neg (Nat.ne_of_gt hlt)] at hstate
        exact advances_resumed hlt hline hstate
  | skipping start position text spans =>
      obtain ⟨hstart, hle⟩ := h
      rcases Nat.eq_or_lt_of_le hle with rfl | hlt
      · exact advances_skipping_end
      · obtain ⟨line, hline⟩ := hline hlt
        exact advances_skipping hstart hline
  | done spans => exact absurd rfl (hdone spans)
  | fault => exact h.elim

theorem valid_step {s : Scan α} (h : r.Valid lines s) : r.Valid lines (r.step lines s) := by
  by_cases hdone : ∃ spans, s = .done spans
  · obtain ⟨spans, rfl⟩ := hdone
    trivial
  · exact (advances_step h fun spans hs => hdone ⟨spans, hs⟩).valid

theorem valid_after (r : LineReader α) (lines : List Line) (steps : Nat) :
    r.Valid lines (r.after lines steps) := by
  induction steps with
  | zero => exact Nat.zero_le _
  | succ steps ih =>
      rw [after, Function.iterate_succ_apply']
      exact valid_step ih

/-- A scan ends, and has then found what it is to find. -/
theorem exists_iterate_eq_done {s : Scan α} (h : r.Valid lines s) :
    ∃ steps, (r.step lines)^[steps] s = .done (r.outcome lines s) := by
  -- By induction on the rank; what is found in the end is the same before and after a step.
  induction hrank : rank lines s using Nat.strong_induction_on generalizing s with
  | _ n ih =>
      by_cases hdone : ∃ spans, s = .done spans
      · obtain ⟨spans, rfl⟩ := hdone
        exact ⟨0, rfl⟩
      · have hadvances := advances_step h fun spans hs => hdone ⟨spans, hs⟩
        obtain ⟨steps, hsteps⟩ := ih _ (hrank ▸ hadvances.rank_lt) hadvances.valid rfl
        refine ⟨steps + 1, ?_⟩
        rw [Function.iterate_succ_apply, hsteps, hadvances.outcome_eq]

/-- A scan of the lines ends, never asks for a line that is not there, starts and goes on joining only at
lines that are there, and takes each line once. -/
structure Completes (r : LineReader α) (lines : List Line) (spans : List (Span α)) : Prop where
  ends : ∃ steps, r.after lines steps = .done spans
  inBounds : ∀ steps, r.after lines steps ≠ .fault
  joins : ∀ steps start position text before,
    r.after lines steps = .joining start position text before →
      start ≤ position ∧ position < lines.length
  covers : spans.flatMap Span.positions = List.range lines.length
  nonempty : ∀ s ∈ spans, 0 < s.count

theorem completes_spansFrom (r : LineReader α) (lines : List Line) :
    r.Completes lines (r.spansFrom 0 lines) where
  ends := by
    have hstart : r.Valid lines (.between 0 []) := Nat.zero_le lines.length
    exact exists_iterate_eq_done hstart
  inBounds steps hfault := by
    have hvalid := valid_after r lines steps
    rw [hfault] at hvalid
    exact hvalid
  joins steps start position text before hjoining := by
    have hvalid := valid_after r lines steps
    rw [hjoining] at hvalid
    obtain ⟨hle, line, hline, -⟩ := hvalid
    exact ⟨hle, lt_length hline⟩
  covers := by rw [flatMap_positions_spansFrom, List.range_eq_range']
  nonempty s hs := by
    obtain ⟨offset, line, rest, -, rfl⟩ := exists_of_mem_spansFrom hs
    exact count_span_pos

end LineReader

end NamelistCatalog
