import NamelistCatalog.Defaults
import NamelistCatalog.Proofs.Statement.Scan

namespace NamelistCatalog

theorem Statement.isTrimmed_join (first : Line) (rest : List Line) :
    Text.IsTrimmed (Statement.join first rest).1 := by
  rw [Statement.join]
  dsimp only
  split
  · exact Text.isTrimmed_trim _
  · exact Text.isTrimmed_trim _

namespace LineReader

variable {α : Type} {r : LineReader α} {position : Nat} {lines : List Line}

theorem pairwise_start_spansFrom (r : LineReader α) (position : Nat) (lines : List Line) :
    (r.spansFrom position lines).Pairwise fun s s' => s.start < s'.start := by
  fun_induction r.spansFrom position lines with
  | case1 position => exact .nil
  | case2 position line rest span ih =>
      have hstart : span.start = position := start_span
      have hpos : 0 < span.count := count_span_pos
      refine .cons ?_ ih
      intro s hs
      obtain ⟨offset, line', rest', -, rfl⟩ := exists_of_mem_spansFrom hs
      have hlater : (r.span (position + span.count + offset) line' rest').start =
          position + span.count + offset := start_span
      omega

end LineReader

namespace CodeLine

def reader : LineReader CodeLine where
  skip? line _ := if line.isCodeless then some ([], 1) else none
  read number text := if text.isEmpty then [] else [⟨number, text⟩]
  skip_pos := by
    intro line next items count h
    split at h
    · obtain ⟨-, rfl⟩ := Prod.mk.inj (Option.some.inj h)
      exact Nat.one_pos
    · cases h
  skip_le := by
    intro line rest items count h
    split at h
    · obtain ⟨-, rfl⟩ := Prod.mk.inj (Option.some.inj h)
      exact Nat.le_add_left _ _
    · cases h

variable {position : Nat} {line : Line} {rest lines : List Line}

theorem span_codeless (h : line.isCodeless = true) :
    reader.span position line rest = ⟨position, 1, false, []⟩ :=
  LineReader.span_eq_skipped (if_pos h)

theorem span_code (h : line.isCodeless = false) :
    reader.span position line rest = ⟨position, (Statement.join line rest).2 + 1, true,
      reader.read (position + 1) (Statement.join line rest).1⟩ :=
  LineReader.span_eq_joined (if_neg (Bool.eq_false_iff.mp h))

theorem ofLinesFrom_cons (position : Nat) (line : Line) (rest : List Line) :
    ofLinesFrom (position + 1) (line :: rest) = (reader.span position line rest).items ++
      ofLinesFrom (position + 1 + (reader.span position line rest).count)
        ((line :: rest).drop (reader.span position line rest).count) := by
  rw [ofLinesFrom]
  split
  · rename_i hcodeless
    rw [span_codeless hcodeless]
    rfl
  · rename_i hcode
    rw [span_code (Bool.eq_false_iff.mpr hcode), reader]
    dsimp only
    rw [Nat.add_right_comm (position + 1) 1]
    split
    · rfl
    · rfl

theorem flatMap_items_spansFrom (lines : List Line) :
    (reader.spansFrom 0 lines).flatMap Span.items = ofLines lines :=
  LineReader.flatMap_items_spansFrom (fun _ => by rw [ofLinesFrom]) ofLinesFrom_cons 0 lines

theorem items_of_mem_spansFrom {s : Span CodeLine} (hs : s ∈ reader.spansFrom position lines) :
    s.items = [] ∨
      ∃ text, s.items = [⟨s.start + 1, text⟩] ∧ text ≠ [] ∧ Text.IsTrimmed text := by
  obtain ⟨offset, line, rest, -, rfl⟩ := LineReader.exists_of_mem_spansFrom hs
  cases hline : line.isCodeless with
  | true => exact .inl (by rw [span_codeless hline])
  | false =>
      rw [span_code hline]
      dsimp only [reader]
      split
      · exact .inl rfl
      · rename_i hne
        exact .inr ⟨_, rfl, mt List.isEmpty_iff.mpr hne, Statement.isTrimmed_join line rest⟩

theorem of_mem_items {s : Span CodeLine} (hs : s ∈ reader.spansFrom position lines) {c : CodeLine}
    (hc : c ∈ s.items) : c.number = s.start + 1 ∧ c.text ≠ [] ∧ Text.IsTrimmed c.text := by
  rcases items_of_mem_spansFrom hs with hitems | ⟨text, hitems, htext⟩
  · rw [hitems] at hc
    cases hc
  · rw [hitems] at hc
    obtain rfl := List.mem_singleton.mp hc
    exact ⟨rfl, htext⟩

theorem pairwise_number_ofLines (lines : List Line) :
    (ofLines lines).Pairwise fun c d => c.number < d.number := by
  rw [← flatMap_items_spansFrom lines, List.pairwise_flatMap]
  constructor
  · intro s hs
    rcases items_of_mem_spansFrom hs with hitems | ⟨text, hitems, -⟩
    · rw [hitems]
      exact .nil
    · rw [hitems]
      exact List.pairwise_singleton _ _
  · refine List.Pairwise.imp_of_mem ?_ (LineReader.pairwise_start_spansFrom reader 0 lines)
    intro s s' hs hs' hlt c hc d hd
    rw [(of_mem_items hs hc).1, (of_mem_items hs' hd).1]
    exact Nat.succ_lt_succ hlt

theorem trimmed_of_mem_ofLines {c : CodeLine} (hc : c ∈ ofLines lines) :
    c.text ≠ [] ∧ Text.IsTrimmed c.text := by
  rw [← flatMap_items_spansFrom lines] at hc
  obtain ⟨s, hs, hc⟩ := List.mem_flatMap.mp hc
  exact (of_mem_items hs hc).2

theorem isCodeless_of_not_joined (hline : lines[position]? = some line)
    (h : ∀ s ∈ reader.spansFrom 0 lines, s.joined = true → position ∉ s.positions) :
    line.isCodeless = true := by
  have hmem : position ∈ (reader.spansFrom 0 lines).flatMap Span.positions := by
    rw [LineReader.flatMap_positions_spansFrom, List.mem_range'_1]
    exact ⟨Nat.zero_le _, by simpa using LineReader.lt_length hline⟩
  obtain ⟨s, hs, hposition⟩ := List.mem_flatMap.mp hmem
  have hjoined := fun hjoined => h s hs hjoined hposition
  obtain ⟨offset, line', rest', hdrop, rfl⟩ := LineReader.exists_of_mem_spansFrom hs
  cases hline' : line'.isCodeless with
  | true =>
      rw [span_codeless hline', Span.positions, List.range'_one, List.mem_singleton,
        Nat.zero_add] at hposition
      rw [hposition, ← List.head?_drop, hdrop] at hline
      rw [← Option.some.inj hline, hline']
  | false =>
      rw [span_code hline'] at hjoined
      exact (hjoined rfl).elim

end CodeLine

namespace DefaultsItem

/-- What a line of a defaults document is that starts no statement, and how many lines it takes. -/
def skip? (line : Line) (next : Option Line) : Option (List DefaultsItem × Nat) :=
  if Text.isBlankText line then some ([.blank], 1)
  else
    line.commentBody?.map fun body =>
      match DocHeader.ofComment? body next with
      | some title => ([.header title.name], if title.underlined then 2 else 1)
      | none => (if (Text.trimStart body).head? == some '#' then [] else [.comment body], 1)

theorem isSome_next {body : List Char} {next : Option Line} {title : DocHeader}
    (h : DocHeader.ofComment? body next = some title) (hunderlined : title.underlined = true) :
    next.isSome = true := by
  rw [DocHeader.ofComment?] at h
  split at h
  · obtain ⟨name, -, rfl⟩ := Option.map_eq_some_iff.mp h
    cases hunderlined
  · split at h
    · rename_i hnext
      cases next with
      | none => cases hnext
      | some line => rfl
    · cases h

theorem count_of_skip? {line : Line} {next : Option Line} {items : List DefaultsItem} {count : Nat}
    (h : skip? line next = some (items, count)) : count = 1 ∨ count = 2 ∧ next.isSome = true := by
  rw [skip?] at h
  split at h
  · exact .inl (Prod.mk.inj (Option.some.inj h)).2.symm
  · obtain ⟨body, -, h⟩ := Option.map_eq_some_iff.mp h
    split at h
    · rename_i title htitle
      cases hunderlined : title.underlined with
      | true =>
          rw [hunderlined] at h
          exact .inr ⟨(Prod.mk.inj h).2.symm, isSome_next htitle hunderlined⟩
      | false =>
          rw [hunderlined] at h
          exact .inl (Prod.mk.inj h).2.symm
    · exact .inl (Prod.mk.inj h).2.symm

def reader : LineReader DefaultsItem where
  skip? := skip?
  read number text := [.statement number text]
  skip_pos := by
    intro line next items count h
    rcases count_of_skip? h with rfl | ⟨rfl, -⟩
    · exact Nat.one_pos
    · exact Nat.two_pos
  skip_le := by
    intro line rest items count h
    rcases count_of_skip? h with rfl | ⟨rfl, hnext⟩
    · exact Nat.le_add_left _ _
    · cases rest with
      | nil => cases hnext
      | cons next more => exact Nat.le_add_left _ _

theorem ofLinesFrom_cons (position : Nat) (line : Line) (rest : List Line) :
    ofLinesFrom (position + 1) (line :: rest) = (reader.span position line rest).items ++
      ofLinesFrom (position + 1 + (reader.span position line rest).count)
        ((line :: rest).drop (reader.span position line rest).count) := by
  have hspan : ∀ items count, skip? line rest.head? = some (items, count) →
      reader.span position line rest = ⟨position, count, false, items⟩ := fun items count hskip =>
    LineReader.span_eq_skipped (r := reader) hskip
  rw [ofLinesFrom]
  split
  · rename_i hblank
    rw [hspan [.blank] 1 (if_pos hblank)]
    rfl
  · rename_i hblank
    split
    · rename_i body hbody
      have hskip : skip? line rest.head? = some (match DocHeader.ofComment? body rest.head? with
          | some title => ([.header title.name], if title.underlined then 2 else 1)
          | none => (if (Text.trimStart body).head? == some '#' then [] else [.comment body], 1)) := by
        rw [skip?, if_neg hblank, hbody, Option.map_some]
      split
      · rename_i title htitle
        rw [htitle] at hskip
        rw [hspan _ _ hskip]
        cases title.underlined <;> rfl
      · rename_i htitle
        rw [htitle] at hskip
        rw [hspan _ _ hskip]
        split
        · rfl
        · rfl
    · rename_i hcode
      have hskip : skip? line rest.head? = none := by
        rw [skip?, if_neg hblank, hcode, Option.map_none]
      rw [LineReader.span_eq_joined (r := reader) hskip]
      dsimp only
      rw [Nat.add_right_comm (position + 1) 1]
      rfl

theorem flatMap_items_spansFrom (lines : List Line) :
    (reader.spansFrom 0 lines).flatMap Span.items = ofLinesFrom 1 lines :=
  LineReader.flatMap_items_spansFrom (fun _ => by rw [ofLinesFrom]) ofLinesFrom_cons 0 lines

end DefaultsItem

namespace LineReader

/-- Both scanners get through the lines of any text. They end, ask for no line that is not there, join
from no place that is not a line, and take each line once, in consecutive spans, whose items are the
document. Statements of code have increasing numbers and trimmed texts, and the lines that they were not
joined from are blank or comments. -/
theorem scans_complete (text : List Char) :
    ∃ code defaults,
      CodeLine.reader.Completes (Text.lines text) code ∧
      code.flatMap Span.items = CodeLine.ofLines (Text.lines text) ∧
      (CodeLine.ofLines (Text.lines text)).Pairwise (fun c d => c.number < d.number) ∧
      (∀ c ∈ CodeLine.ofLines (Text.lines text), c.text ≠ [] ∧ Text.IsTrimmed c.text) ∧
      (∀ (position : Nat) (line : Line), (Text.lines text)[position]? = some line →
        (∀ s ∈ code, s.joined = true → position ∉ s.positions) → line.isCodeless = true) ∧
      DefaultsItem.reader.Completes (Text.lines text) defaults ∧
      defaults.flatMap Span.items = DefaultsItem.ofLinesFrom 1 (Text.lines text) := by
  refine ⟨_, _, completes_spansFrom _ _, CodeLine.flatMap_items_spansFrom _, ?_, ?_, ?_,
    completes_spansFrom _ _, DefaultsItem.flatMap_items_spansFrom _⟩
  · exact CodeLine.pairwise_number_ofLines (Text.lines text)
  · exact fun c => CodeLine.trimmed_of_mem_ofLines
  · exact fun position line => CodeLine.isCodeless_of_not_joined

end LineReader

end NamelistCatalog
