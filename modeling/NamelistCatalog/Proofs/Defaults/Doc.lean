import Mathlib.Data.List.Chain
import Mathlib.Data.List.TakeWhile
import Mathlib.Tactic.MkIffOfInductiveProp
import NamelistCatalog.Proofs.Defaults.Heading

namespace NamelistCatalog

/-- A line of documentation that is neither a heading nor markup. -/
@[mk_iff]
structure Line.IsPlain (line : Line) : Prop where
  feed : '\n' ∉ line
  ending : ∀ c ∈ line.getLast?, Text.isBlank c = false
  hash : (Text.trim line).head? ≠ some '#'
  block : ¬[':', ':'] <:+ Text.trim line
  underline : ¬(3 ≤ (Text.trim line).length ∧ ∀ c ∈ Text.trim line, c = '~')

/-- Lines of documentation that are shown as they are: plain ones, with no blank line at either end
or after another, and one that is not indented. -/
@[mk_iff]
structure Doc.IsPlain (lines : List Line) : Prop where
  plain : ∀ line ∈ lines, line.IsPlain
  first : ∀ line ∈ lines.head?, Text.isBlankText line = false
  last : ∀ line ∈ lines.getLast?, Text.isBlankText line = false
  spaced : lines.IsChain fun line next =>
    ¬(Text.isBlankText line = true ∧ Text.isBlankText next = true)
  flush : lines ≠ [] → ∃ line ∈ lines, ∃ c ∈ line.head?, Text.isBlank c = false

-- Decided on the characters that are there: there are too many others to go through.
instance (line : Line) : Decidable line.IsPlain :=
  haveI : Decidable (∀ c ∈ line.getLast?, Text.isBlank c = false) :=
    decidable_of_iff (line.getLast?.all fun c => !Text.isBlank c) (by simp [Option.all_eq_true])
  haveI : Decidable (∀ c ∈ Text.trim line, c = '~') :=
    decidable_of_iff ((Text.trim line).all (· == '~')) (by simp)
  decidable_of_iff' _ line.isPlain_iff

instance (lines : List Line) : Decidable (Doc.IsPlain lines) :=
  haveI : DecidablePred fun line : Line => ∃ c ∈ line.head?, Text.isBlank c = false := fun line =>
    decidable_of_iff (line.head?.any fun c => !Text.isBlank c) (by simp [Option.any_eq_true])
  decidable_of_iff' _ (Doc.isPlain_iff lines)

/-- What follows the exclamation mark of the comment for a line. -/
def Line.commentText (line : Line) : List Char :=
  if Text.isBlankText line then [] else ' ' :: line

def Line.toComment (line : Line) : Line := '!' :: line.commentText

namespace Line.IsPlain

variable {line : Line}

theorem isBlankText_iff (h : line.IsPlain) : Text.isBlankText line = true ↔ line = [] := by
  constructor
  · intro hblank
    cases hlast : line.getLast? with
    | none => exact List.getLast?_eq_none_iff.mp hlast
    | some c =>
        -- A blank line would end in a blank.
        have hc := List.all_eq_true.mp hblank c (List.mem_of_getLast? hlast)
        rw [h.ending c hlast] at hc
        cases hc
  · rintro rfl
    rfl

theorem commentText_of_ne_nil (h : line.IsPlain) (hne : line ≠ []) :
    line.commentText = ' ' :: line := if_neg fun hblank => hne (h.isBlankText_iff.mp hblank)

theorem ending_commentText (h : line.IsPlain) : ∀ c ∈ line.commentText.getLast?,
    Text.isBlank c = false := by
  by_cases hne : line = []
  · subst hne
    intro c hc
    cases hc
  · rw [h.commentText_of_ne_nil hne, Text.getLast?_cons_right hne]
    exact h.ending

theorem trim_commentText (h : line.IsPlain) : Text.trim line.commentText = Text.trim line := by
  by_cases hne : line = []
  · subst hne
    rfl
  · rw [h.commentText_of_ne_nil hne, Text.trim_cons (by decide)]

theorem not_isSuffix (h : line.IsPlain) : ¬[':', ':'] <:+ line := by
  intro hs
  exact h.block (Text.isSuffix_trim (by simp) (by decide) hs)

theorem isInvisible_commentText_iff (h : line.IsPlain) :
    Doc.isInvisible line.commentText = true ↔ line = [] := by
  have hmark : Text.trim line ≠ [':', ':'] := fun htrim => h.block ⟨[], htrim.symm⟩
  by_cases hne : line = []
  · subst hne
    simp [Doc.isInvisible, commentText, Text.isBlankText]
  · have hblank : Text.isBlankText line = false := by
      rw [← Bool.not_eq_true, h.isBlankText_iff]
      exact hne
    rw [Doc.isInvisible, h.trim_commentText, h.commentText_of_ne_nil hne, Text.isBlankText_cons,
      hblank, Bool.and_false, Bool.false_or, beq_iff_eq]
    simp [hmark, hne]

theorem renderLine_commentText (h : line.IsPlain) : Doc.renderLine 1 line.commentText = line := by
  by_cases hne : line = []
  · rw [Doc.renderLine, if_pos (h.isInvisible_commentText_iff.mpr hne), hne]
  · have hcut : Doc.dropBytes? 1 line.commentText = some line := by
      have hsize : ' '.utf8Size = 1 := by decide
      rw [h.commentText_of_ne_nil hne, Doc.dropBytes?, hsize, if_pos (by decide), Doc.dropBytes?]
    rw [Doc.renderLine, if_neg (by rw [h.isInvisible_commentText_iff]; exact hne), hcut,
      Option.getD_some, Text.trimEnd, Text.dropEndWhile_eq_self h.ending]
    dsimp only
    rw [Text.dropEnd?_eq_none h.not_isSuffix]

theorem commentBody?_toComment (h : line.IsPlain) :
    line.toComment.commentBody? = some line.commentText := by
  refine Line.commentBody?_cons ?_ h.ending_commentText
  rw [commentText]
  split
  · simp
  · simp

theorem of_toComment (h : line.IsPlain) :
    '\n' ∉ line.toComment ∧ ∀ c ∈ line.toComment.getLast?, Text.isBlank c = false := by
  by_cases hne : line = []
  · subst hne
    refine ⟨by decide, ?_⟩
    rintro c ⟨⟩
    decide
  · rw [toComment, h.commentText_of_ne_nil hne]
    refine ⟨by simp [h.feed], ?_⟩
    rw [Text.getLast?_cons_right (by simp), Text.getLast?_cons_right hne]
    exact h.ending

theorem not_isUnderline_toComment (h : line.IsPlain) :
    DocHeader.isUnderline line.toComment = false := by
  rw [DocHeader.isUnderline, h.commentBody?_toComment]
  dsimp only
  rw [h.trim_commentText, ← Bool.not_eq_true, Bool.and_eq_true, decide_eq_true_iff,
    List.all_eq_true]
  simp only [beq_iff_eq]
  exact h.underline

theorem ofComment?_commentText (h : line.IsPlain) {next : Option Line}
    (hnext : next.any DocHeader.isUnderline = false) :
    DocHeader.ofComment? line.commentText next = none := by
  have hhash : Text.dropStart? ['#', '#', '#'] (Text.trim line) = none := by
    rw [Text.dropStart?, if_neg]
    rw [List.isPrefixOf_iff_prefix]
    rintro ⟨rest, hrest⟩
    apply h.hash
    rw [← hrest]
    rfl
  rw [DocHeader.ofComment?, h.trim_commentText, hhash, hnext]
  rfl

end Line.IsPlain

namespace DocHeader

/-- The comment that names a parameter in front of its documentation. -/
def toComment (name : String) : Line := '!' :: ' ' :: (['#', '#', '#'] ++ ' ' :: name.toList)

variable {name : String}

theorem nameOf?_toList (h : Name.isValid name = true) :
    nameOf? name.toList = some (Name.fold name) := by
  rw [nameOf?_eq_some_iff]
  exact ⟨name, [], [], (List.append_nil name.toList).symm, h, rfl, .inl rfl, rfl⟩

theorem isTrimmed_title (h : Name.isValid name = true) :
    Text.IsTrimmed (['#', '#', '#', ' '] ++ name.toList) :=
  Text.isTrimmed_append (by simp) (Name.toList_ne_nil_of_isValid h)
    (by rintro c ⟨⟩; decide) (Name.isTrimmed_of_isValid h).2

theorem commentBody?_toComment (h : Name.isValid name = true) :
    (toComment name).commentBody? = some (' ' :: (['#', '#', '#'] ++ ' ' :: name.toList)) := by
  refine Line.commentBody?_cons (by simp) ?_
  rw [Text.getLast?_cons_right (by simp)]
  exact (isTrimmed_title h).2

theorem ofComment?_toComment (h : Name.isValid name = true) (next : Option Line) :
    ofComment? (' ' :: (['#', '#', '#'] ++ ' ' :: name.toList)) next =
      some ⟨Name.fold name, false⟩ := by
  have hbody : Text.trim (' ' :: (['#', '#', '#'] ++ ' ' :: name.toList)) =
      ['#', '#', '#'] ++ ' ' :: name.toList := by
    rw [Text.trim_cons (by decide)]
    exact Text.trim_eq_self_iff.mpr (isTrimmed_title h)
  have hname : Text.trim (' ' :: name.toList) = name.toList := by
    rw [Text.trim_cons (by decide)]
    exact Text.trim_eq_self_iff.mpr (Name.isTrimmed_of_isValid h)
  rw [ofComment?, hbody, Text.dropStart?_append]
  dsimp only
  rw [hname, nameOf?_toList h, Option.map_some]

end DocHeader

namespace Doc

theorem byteCount_cons (c : Char) (s : List Char) : byteCount (c :: s) = byteCount s + c.utf8Size := by
  have hstart : ∀ n, s.foldl (fun n c => n + c.utf8Size) n = n + byteCount s := by
    unfold byteCount
    induction s with
    | nil => simp
    | cons c rest ih =>
        intro n
        rw [List.foldl_cons, List.foldl_cons, ih, ih (0 + c.utf8Size)]
        omega
  rw [byteCount, List.foldl_cons, hstart, Nat.zero_add, Nat.add_comm]

theorem byteCount_cons_space (s : List Char) : byteCount (' ' :: s) = byteCount s + 1 :=
  byteCount_cons ' ' s

theorem indentation_cons_space (line : Line) : indentation (' ' :: line) = indentation line + 1 := by
  rw [indentation, List.takeWhile_cons_of_pos (by decide), byteCount_cons_space, indentation]

theorem indentation_of_flush {line : Line} (h : ∃ c ∈ line.head?, Text.isBlank c = false) :
    indentation line = 0 := by
  obtain ⟨c, hc, hblank⟩ := h
  obtain ⟨rest, rfl⟩ := List.head?_eq_some_iff.mp hc
  rw [indentation, List.takeWhile_cons_of_neg (by simp [hblank])]
  rfl

theorem minimum_eq_of_forall_le {n : Nat} {ns : List Nat} (hmem : n ∈ ns) (hle : ∀ m ∈ ns, n ≤ m) :
    minimum ns = n := by
  have hmin : ns.min? = some n := List.min?_eq_some_iff.mpr ⟨hmem, hle⟩
  cases ns with
  | nil => cases hmem
  | cons m rest =>
      rw [List.min?_cons'] at hmin
      exact Option.some.inj hmin

theorem squeeze_eq_self {lines : List Line} {afterEmpty : Bool}
    (hfirst : afterEmpty = true → ∀ line ∈ lines.head?, line ≠ [])
    (hspaced : lines.IsChain fun line next => ¬(line = [] ∧ next = [])) :
    squeeze afterEmpty lines = lines := by
  induction lines generalizing afterEmpty with
  | nil => rfl
  | cons line rest ih =>
      have hnext : line = [] → ∀ next ∈ rest.head?, next ≠ [] := by
        intro hline next hnext hempty
        obtain ⟨more, rfl⟩ := List.head?_eq_some_iff.mp hnext
        exact (List.isChain_cons_cons.mp hspaced).1 ⟨hline, hempty⟩
      rw [squeeze]
      split
      · rename_i hline
        rw [List.isEmpty_iff] at hline
        rw [if_neg]
        · rw [ih (fun _ => hnext hline) hspaced.tail]
        · intro hafter
          exact hfirst hafter line rfl hline
      · rw [ih (by simp) hspaced.tail]

theorem dropEmptyEnd_eq_self {lines : List Line} (h : ∀ line ∈ lines.getLast?, line ≠ []) :
    dropEmptyEnd lines = lines := by
  rw [dropEmptyEnd]
  cases hlines : lines.reverse with
  | nil => rw [List.reverse_eq_nil_iff.mp hlines]; rfl
  | cons last more =>
      have hlast : last ≠ [] := by
        apply h
        rw [← List.head?_reverse, hlines]
        rfl
      rw [List.dropWhile_cons_of_neg (by simpa using hlast), ← hlines, List.reverse_reverse]

variable {lines : List Line}

theorem commonIndentation_map_commentText (h : IsPlain lines) (hne : lines ≠ []) :
    commonIndentation (lines.map Line.commentText) = 1 := by
  rw [commonIndentation]
  -- The line that is not indented has the space of its comment and no more.
  apply minimum_eq_of_forall_le
  · obtain ⟨line, hmem, hflush⟩ := h.flush hne
    have hline : line ≠ [] := by
      rintro rfl
      simp at hflush
    refine List.mem_map.mpr ⟨line.commentText, List.mem_filter.mpr ⟨?_, ?_⟩, ?_⟩
    · exact List.mem_map_of_mem hmem
    · rw [Bool.not_eq_true', ← Bool.not_eq_true, (h.plain line hmem).isInvisible_commentText_iff]
      exact hline
    · rw [(h.plain line hmem).commentText_of_ne_nil hline, indentation_cons_space,
        indentation_of_flush hflush]
  · intro n hn
    obtain ⟨text, htext, rfl⟩ := List.mem_map.mp hn
    obtain ⟨htext, hvisible⟩ := List.mem_filter.mp htext
    obtain ⟨line, hmem, rfl⟩ := List.mem_map.mp htext
    have hline : line ≠ [] := by
      rintro rfl
      revert hvisible
      decide
    rw [(h.plain line hmem).commentText_of_ne_nil hline, indentation_cons_space]
    omega

/-- A block of comments for plain lines gives the text of these lines. -/
theorem render_map_commentText (h : IsPlain lines) :
    render (lines.map Line.commentText) = String.ofList (Text.joinWith ['\n'] lines) := by
  by_cases hne : lines = []
  · subst hne
    rfl
  · have hshown : (lines.map Line.commentText).map (renderLine 1) = lines := by
      rw [List.map_map]
      calc
        lines.map (renderLine 1 ∘ Line.commentText) = lines.map id :=
          List.map_congr_left fun line hmem => (h.plain line hmem).renderLine_commentText
        _ = lines := List.map_id lines
    have hempty : ∀ line ∈ lines, Text.isBlankText line = true ↔ line = [] :=
      fun line hmem => (h.plain line hmem).isBlankText_iff
    have hfirst : ∀ line ∈ lines.head?, line ≠ [] := by
      intro line hline
      rw [ne_eq, ← hempty line (List.mem_of_mem_head? hline), h.first line hline]
      exact Bool.false_ne_true
    have hlast : ∀ line ∈ lines.getLast?, line ≠ [] := by
      intro line hline
      rw [ne_eq, ← hempty line (List.mem_of_getLast? hline), h.last line hline]
      exact Bool.false_ne_true
    have hspaced : lines.IsChain fun line next => ¬(line = [] ∧ next = []) := by
      refine h.spaced.imp_of_mem_imp ?_
      intro line next hline hnext hblank
      rw [← hempty line hline, ← hempty next hnext]
      exact hblank
    rw [render, renderLines, commonIndentation_map_commentText h hne, hshown,
      squeeze_eq_self (fun _ => hfirst) hspaced, dropEmptyEnd_eq_self hlast]

/-- The events of a block of one name, up to the line of code that closes it. -/
def blockEvents (name : String) (texts : List (List Char)) : List DocEvent :=
  .header name :: (texts.map .line ++ [.endBlock])

theorem Collector.foldl_line {c : Collector} (hopen : c.isOpen = true) (texts : List (List Char)) :
    (texts.map DocEvent.line).foldl Collector.step c = { c with lines := c.lines ++ texts } := by
  induction texts generalizing c with
  | nil => rw [List.map_nil, List.foldl_nil, List.append_nil]
  | cons text rest ih =>
      have hstep : c.step (.line text) = { c with lines := c.lines ++ [text] } := if_pos hopen
      have hopen' : ({ c with lines := c.lines ++ [text] } : Collector).isOpen = true := hopen
      rw [List.map_cons, List.foldl_cons, hstep, ih hopen', List.append_assoc,
        List.singleton_append]

theorem Collector.foldl_blockEvents (texts : Texts) (name : String) (lines : List (List Char)) :
    (blockEvents name lines).foldl Collector.step { texts } =
      { texts := texts ++ [(name, render lines)] } := by
  have hheader : Collector.step { texts } (.header name) =
      { names := [name], isOpen := true, texts } := rfl
  rw [blockEvents, List.foldl_cons, hheader, List.foldl_append, Collector.foldl_line rfl]
  rfl

end Doc

end NamelistCatalog
