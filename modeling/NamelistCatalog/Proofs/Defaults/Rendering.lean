import Mathlib.Data.List.DropRight
import NamelistCatalog.Proofs.Defaults.Doc
import NamelistCatalog.Proofs.Text.Lines

namespace NamelistCatalog

namespace Text

theorem lines_joinWith {ls : List (List Char)} (hfeed : ∀ line ∈ ls, '\n' ∉ line)
    (hreturn : ∀ line ∈ ls, line.getLast? ≠ some '\r') (hlast : ∀ line ∈ ls.getLast?, line ≠ []) :
    lines (joinWith ['\n'] ls) = ls := by
  have hparts : linesOfParts ls = ls := by
    induction ls with
    | nil => rfl
    | cons line rest ih =>
        rw [List.forall_mem_cons] at hfeed hreturn
        cases rest with
        | nil => rw [linesOfParts, if_neg (by simpa using hlast line rfl)]
        | cons next more =>
            rw [linesOfParts, dropReturn_eq_self hreturn.1, ih hfeed.2 hreturn.2 hlast]
            simp
  by_cases hne : ls = []
  · rw [hne]
    rfl
  · rw [lines, fields_joinWith hne hfeed, hparts]

end Text

namespace Doc

/-- The text with a colon for the literal-block marker that it may end in. -/
def unmarked (text : List Char) : List Char :=
  match Text.dropEnd? [':', ':'] text with
  | some head => Text.trimEnd head ++ [':']
  | none => text

theorem unmarked_append_marker (head : List Char) :
    unmarked (head ++ [':', ':']) = Text.trimEnd head ++ [':'] := by
  rw [unmarked, Text.dropEnd?_append]

theorem unmarked_eq_self {text : List Char} (h : ¬[':', ':'] <:+ text) : unmarked text = text := by
  rw [unmarked, Text.dropEnd?_eq_none h]

section Unmarked

variable {text blanks : List Char}

theorem exists_eq_cons_append_marker (h : Text.IsTrimmed text) (hmark : text ≠ [':', ':'])
    (hsuffix : [':', ':'] <:+ text) :
    ∃ c rest, text = c :: rest ++ [':', ':'] ∧ Text.isBlank c = false := by
  obtain ⟨head, rfl⟩ := hsuffix
  cases head with
  | nil => exact absurd rfl hmark
  | cons c rest => exact ⟨c, rest, rfl, h.1 c rfl⟩

theorem isTrimmed_unmarked (h : Text.IsTrimmed text) (hne : text ≠ []) (hmark : text ≠ [':', ':']) :
    Text.IsTrimmed (unmarked text) ∧ unmarked text ≠ [] := by
  by_cases hsuffix : [':', ':'] <:+ text
  · obtain ⟨c, rest, rfl, hc⟩ := exists_eq_cons_append_marker h hmark hsuffix
    rw [unmarked_append_marker, Text.trimEnd_cons hc]
    refine ⟨Text.isTrimmed_append (by simp) (by simp) ?_ ?_, by simp⟩
    · rintro d ⟨⟩
      exact hc
    · rintro d ⟨⟩
      decide
  · rw [unmarked_eq_self hsuffix]
    exact ⟨h, hne⟩

theorem unmarked_append (hblanks : Text.isBlankText blanks = true) (h : Text.IsTrimmed text)
    (hne : text ≠ []) (hmark : text ≠ [':', ':']) :
    unmarked (blanks ++ text) = blanks ++ unmarked text := by
  by_cases hsuffix : [':', ':'] <:+ text
  · obtain ⟨c, rest, rfl, hc⟩ := exists_eq_cons_append_marker h hmark hsuffix
    rw [← List.append_assoc, unmarked_append_marker, unmarked_append_marker, Text.trimEnd_append_cons hc,
      Text.trimEnd_cons hc, List.append_assoc]
  · have hlong : ¬[':', ':'] <:+ blanks ++ text := by
      intro hlong
      -- Blanks hold no colon, so the marker would be the whole text or more than it.
      have hshort : text <:+ [':', ':'] :=
        (List.suffix_or_suffix_of_suffix hlong (List.suffix_append blanks text)).resolve_left hsuffix
      rcases List.suffix_cons_iff.mp hshort with rfl | hshort
      · exact hmark rfl
      rcases List.suffix_cons_iff.mp hshort with rfl | hshort
      · obtain ⟨before, hbefore⟩ := hlong
        have hcolon : before ++ [':'] = blanks := by
          have happend : before ++ [':'] ++ [':'] = blanks ++ [':'] := by
            rw [← hbefore, List.append_assoc, List.singleton_append]
          exact List.append_cancel_right happend
        have hblank := List.all_eq_true.mp hblanks ':' (by simp [← hcolon])
        revert hblank
        decide
      · exact hne (List.suffix_nil.mp hshort)
    rw [unmarked_eq_self hsuffix, unmarked_eq_self hlong]

end Unmarked

/-! The indentation that is cut off. -/

theorem dropBytes?_zero (s : List Char) : dropBytes? 0 s = some s := by
  rw [dropBytes?]

theorem dropBytes?_append {blanks : List Char} {n : Nat} (h : n ≤ byteCount blanks) (text : List Char) :
    dropBytes? n (blanks ++ text) = none ∨
      ∃ back, back <:+ blanks ∧ dropBytes? n (blanks ++ text) = some (back ++ text) := by
  induction blanks generalizing n with
  | nil =>
      obtain rfl : n = 0 := Nat.le_zero.mp h
      exact .inr ⟨[], List.suffix_rfl, dropBytes?_zero text⟩
  | cons c rest ih =>
      cases n with
      | zero => exact .inr ⟨c :: rest, List.suffix_rfl, dropBytes?_zero _⟩
      | succ n =>
          rw [byteCount_cons] at h
          rw [List.cons_append, dropBytes?]
          split
          · rcases ih (n := n + 1 - c.utf8Size) (by omega) with hnone | ⟨back, hback, hsome⟩
            · exact .inl hnone
            · exact .inr ⟨back, hback.trans (List.suffix_cons c rest), hsome⟩
          · exact .inl rfl

section Indentation

variable {line : Line} {n : Nat}

theorem isInvisible_eq_false_iff :
    isInvisible line = false ↔ Text.isBlankText line = false ∧ Text.trim line ≠ [':', ':'] := by
  rw [isInvisible, Bool.or_eq_false_iff, beq_eq_false_iff_ne]

theorem exists_renderLine_eq (hvisible : isInvisible line = false) (hn : n ≤ indentation line) :
    ∃ back, back <:+ line.takeWhile Text.isBlank ∧ Text.isBlankText back = true ∧
      renderLine n line = back ++ unmarked (Text.trim line) := by
  obtain ⟨hblank, hmark⟩ := isInvisible_eq_false_iff.mp hvisible
  obtain ⟨back, hback, hcut⟩ : ∃ back, back <:+ line.takeWhile Text.isBlank ∧
      (dropBytes? n line).getD (Text.trimStart line) = back ++ Text.trimStart line := by
    have hsplit : line.takeWhile Text.isBlank ++ Text.trimStart line = line :=
      List.takeWhile_append_dropWhile
    rcases dropBytes?_append hn (Text.trimStart line) with hnone | ⟨back, hback, hsome⟩
    · rw [hsplit] at hnone
      exact ⟨[], List.nil_suffix, by rw [hnone, Option.getD_none, List.nil_append]⟩
    · rw [hsplit] at hsome
      exact ⟨back, hback, by rw [hsome, Option.getD_some]⟩
  have hblanks : Text.isBlankText back = true :=
    List.all_eq_true.mpr fun c hc => List.mem_takeWhile_imp (hback.mem hc)
  refine ⟨back, hback, hblanks, ?_⟩
  rw [renderLine, if_neg (Bool.eq_false_iff.mp hvisible)]
  change unmarked (Text.trimEnd ((dropBytes? n line).getD (Text.trimStart line))) = _
  rw [hcut, Text.trimEnd_append_trimStart hblank,
    unmarked_append hblanks (Text.isTrimmed_trim line) (Text.trim_ne_nil hblank) hmark]

theorem isTrimmed_unmarked_trim (hvisible : isInvisible line = false) :
    Text.IsTrimmed (unmarked (Text.trim line)) ∧ unmarked (Text.trim line) ≠ [] := by
  obtain ⟨hblank, hmark⟩ := isInvisible_eq_false_iff.mp hvisible
  exact isTrimmed_unmarked (Text.isTrimmed_trim line) (Text.trim_ne_nil hblank) hmark

theorem trim_renderLine (hvisible : isInvisible line = false) (hn : n ≤ indentation line) :
    Text.trim (renderLine n line) = unmarked (Text.trim line) := by
  obtain ⟨back, -, hblanks, hline⟩ := exists_renderLine_eq hvisible hn
  obtain ⟨htrimmed, -⟩ := isTrimmed_unmarked_trim hvisible
  rw [hline, Text.trim_indented hblanks htrimmed]

theorem isBlankText_renderLine (hvisible : isInvisible line = false) (hn : n ≤ indentation line) :
    Text.isBlankText (renderLine n line) = false := by
  rw [← Bool.not_eq_true]
  intro hblank
  apply (isTrimmed_unmarked_trim hvisible).2
  rw [← trim_renderLine hvisible hn, Text.trim, Text.trimStart,
    List.dropWhile_eq_nil_iff.mpr (List.all_eq_true.mp hblank)]
  rfl

theorem ending_renderLine (hvisible : isInvisible line = false) (hn : n ≤ indentation line) :
    ∀ c ∈ (renderLine n line).getLast?, Text.isBlank c = false := by
  obtain ⟨back, -, -, hline⟩ := exists_renderLine_eq hvisible hn
  obtain ⟨htrimmed, hne⟩ := isTrimmed_unmarked_trim hvisible
  rw [hline, Text.getLast?_append_right hne]
  exact htrimmed.2

theorem mem_unmarked {text : List Char} {c : Char} (h : c ∈ unmarked text) : c ∈ text ∨ c = ':' := by
  by_cases hsuffix : [':', ':'] <:+ text
  · obtain ⟨head, rfl⟩ := hsuffix
    rw [unmarked_append_marker] at h
    rcases List.mem_append.mp h with h | h
    · exact .inl (List.mem_append_left _ ((Text.dropEndWhile_isPrefix _ _).mem h))
    · exact .inr (List.mem_singleton.mp h)
  · rw [unmarked_eq_self hsuffix] at h
    exact .inl h

theorem newline_not_mem_renderLine (hfeed : '\n' ∉ line) (hvisible : isInvisible line = false)
    (hn : n ≤ indentation line) : '\n' ∉ renderLine n line := by
  obtain ⟨back, hback, -, hline⟩ := exists_renderLine_eq hvisible hn
  rw [hline]
  intro hmem
  rcases List.mem_append.mp hmem with hmem | hmem
  · exact hfeed ((List.takeWhile_prefix _).mem (hback.mem hmem))
  · rcases mem_unmarked hmem with hmem | hmem
    · exact hfeed ((Text.trim_isInfix line).mem hmem)
    · revert hmem
      decide

theorem renderLine_of_isInvisible (h : isInvisible line = true) : renderLine n line = [] := if_pos h

end Indentation

/-! Blanks that take one byte each. -/

def depth (line : Line) : Nat := (line.takeWhile Text.isBlank).length

def IsAsciiIndented (line : Line) : Prop := ∀ c ∈ line.takeWhile Text.isBlank, c.toNat < 128

theorem utf8Size_of_ascii {c : Char} (h : c.toNat < 128) : c.utf8Size = 1 := by
  rw [Char.utf8Size_eq_one_iff, UInt32.le_iff_toNat_le]
  exact Nat.le_of_lt_succ h

theorem byteCount_of_ascii {s : List Char} (h : ∀ c ∈ s, c.toNat < 128) : byteCount s = s.length := by
  induction s with
  | nil => rfl
  | cons c rest ih =>
      rw [List.forall_mem_cons] at h
      rw [byteCount_cons, ih h.2, utf8Size_of_ascii h.1, List.length_cons]

theorem dropBytes?_of_ascii {blanks : List Char} (h : ∀ c ∈ blanks, c.toNat < 128) {n : Nat}
    (hn : n ≤ blanks.length) (text : List Char) :
    dropBytes? n (blanks ++ text) = some ((blanks ++ text).drop n) := by
  induction blanks generalizing n with
  | nil =>
      obtain rfl : n = 0 := Nat.le_zero.mp hn
      exact dropBytes?_zero text
  | cons c rest ih =>
      rw [List.forall_mem_cons] at h
      cases n with
      | zero => exact dropBytes?_zero _
      | succ n =>
          rw [List.cons_append, dropBytes?, utf8Size_of_ascii h.1, if_pos (Nat.le_add_left 1 n),
            Nat.add_sub_cancel, ih h.2 (Nat.le_of_succ_le_succ hn), List.drop_succ_cons]

theorem indentation_of_ascii {line : Line} (h : IsAsciiIndented line) : indentation line = depth line :=
  byteCount_of_ascii h

theorem renderLine_of_ascii {line : Line} (h : IsAsciiIndented line) (hvisible : isInvisible line = false)
    {n : Nat} (hn : n ≤ depth line) :
    renderLine n line = unmarked (Text.trimEnd (line.drop n)) := by
  have hcut := dropBytes?_of_ascii h hn (line.dropWhile Text.isBlank)
  rw [List.takeWhile_append_dropWhile] at hcut
  rw [renderLine, if_neg (Bool.eq_false_iff.mp hvisible), hcut]
  rfl

/-! The indentation that all lines share. -/

theorem minimum_mem {ns : List Nat} (hne : ns ≠ []) : minimum ns ∈ ns ∧ ∀ n ∈ ns, minimum ns ≤ n := by
  cases ns with
  | nil => exact absurd rfl hne
  | cons m rest =>
      have hmin : (m :: rest).min? = some (minimum (m :: rest)) := List.min?_cons'
      exact List.min?_eq_some_iff.mp hmin

def visible (lines : List Line) : List Line := lines.filter fun line => !isInvisible line

theorem mem_visible_iff {lines : List Line} {line : Line} :
    line ∈ visible lines ↔ line ∈ lines ∧ isInvisible line = false := by
  rw [visible, List.mem_filter, Bool.not_eq_true']

theorem commonIndentation_le {lines : List Line} {line : Line} (h : line ∈ visible lines) :
    commonIndentation lines ≤ indentation line := by
  have hmem : indentation line ∈ (visible lines).map indentation := List.mem_map_of_mem h
  exact (minimum_mem (List.ne_nil_of_mem hmem)).2 _ hmem

/-! The empty lines that are left out. -/

theorem squeeze_sublist (afterEmpty : Bool) (lines : List Line) :
    (squeeze afterEmpty lines).Sublist lines := by
  induction lines generalizing afterEmpty with
  | nil => exact List.Sublist.refl []
  | cons line rest ih =>
      rw [squeeze]
      split
      · split
        · exact (ih true).cons line
        · exact (ih true).cons_cons line
      · exact (ih false).cons_cons line

theorem filter_squeeze (afterEmpty : Bool) (lines : List Line) :
    (squeeze afterEmpty lines).filter (fun line => !line.isEmpty) =
      lines.filter fun line => !line.isEmpty := by
  induction lines generalizing afterEmpty with
  | nil => rfl
  | cons line rest ih =>
      rw [squeeze]
      split
      · rename_i hline
        rw [List.filter_cons_of_neg (l := rest) (by simp [hline])]
        split
        · exact ih true
        · rw [List.filter_cons_of_neg (by simp [hline]), ih]
      · rename_i hline
        rw [List.filter_cons_of_pos (by simp [hline]), List.filter_cons_of_pos (by simp [hline]), ih]

theorem head?_squeeze (lines : List Line) : ∀ line ∈ (squeeze true lines).head?, line ≠ [] := by
  induction lines with
  | nil => simp [squeeze]
  | cons line rest ih =>
      rw [squeeze]
      split
      · exact ih
      · rename_i hline
        rintro _ ⟨⟩
        simpa using hline

theorem isChain_squeeze (afterEmpty : Bool) (lines : List Line) :
    (squeeze afterEmpty lines).IsChain fun line next => ¬(line = [] ∧ next = []) := by
  induction lines generalizing afterEmpty with
  | nil => exact List.isChain_nil
  | cons line rest ih =>
      rw [squeeze]
      split
      · split
        · exact ih true
        · refine List.isChain_cons.mpr ⟨?_, ih true⟩
          intro next hnext hempty
          exact head?_squeeze rest next hnext hempty.2
      · rename_i hline
        refine List.isChain_cons.mpr ⟨?_, ih false⟩
        intro next _ hempty
        exact hline (List.isEmpty_iff.mpr hempty.1)

theorem dropEmptyEnd_isPrefix (lines : List Line) : dropEmptyEnd lines <+: lines :=
  List.rdropWhile_prefix List.isEmpty lines

theorem getLast?_dropEmptyEnd (lines : List Line) : ∀ line ∈ (dropEmptyEnd lines).getLast?, line ≠ [] := by
  intro line hline
  have hne : dropEmptyEnd lines ≠ [] := by
    intro hnil
    rw [hnil] at hline
    cases hline
  have hlast := List.rdropWhile_last_not List.isEmpty lines hne
  rw [List.getLast?_eq_some_getLast hne, Option.mem_some] at hline
  rw [← hline]
  exact fun hempty => hlast (List.isEmpty_iff.mpr hempty)

theorem filter_dropEmptyEnd (lines : List Line) :
    (dropEmptyEnd lines).filter (fun line => !line.isEmpty) = lines.filter fun line => !line.isEmpty := by
  have hend : (lines.rtakeWhile List.isEmpty).filter (fun line => !line.isEmpty) = [] := by
    rw [List.filter_eq_nil_iff]
    intro line hline
    simpa using List.mem_rtakeWhile_imp hline
  conv_rhs => rw [← List.rdropWhile_append_rtakeWhile (p := List.isEmpty) (l := lines)]
  rw [List.filter_append, hend, List.append_nil]
  rfl

/-! The lines that are shown. -/

section RenderLines

variable {lines : List Line} {shown : Line}

theorem exists_of_mem_renderLines (h : shown ∈ renderLines lines) :
    ∃ line ∈ lines, renderLine (commonIndentation lines) line = shown := by
  rw [renderLines] at h
  exact List.mem_map.mp ((squeeze_sublist _ _).mem ((dropEmptyEnd_isPrefix _).mem h))

theorem isEmpty_renderLine {line : Line} (h : line ∈ lines) :
    (renderLine (commonIndentation lines) line).isEmpty = isInvisible line := by
  cases hvisible : isInvisible line with
  | true => rw [renderLine_of_isInvisible hvisible]; rfl
  | false =>
      have hindent := commonIndentation_le (mem_visible_iff.mpr ⟨h, hvisible⟩)
      have hblank := isBlankText_renderLine hvisible hindent
      rw [List.isEmpty_eq_false_iff]
      intro hnil
      rw [hnil] at hblank
      cases hblank

theorem head?_renderLines : ∀ shown ∈ (renderLines lines).head?, shown ≠ [] := by
  intro shown h
  obtain ⟨rest, hrest⟩ :=
    dropEmptyEnd_isPrefix (squeeze true (lines.map (renderLine (commonIndentation lines))))
  apply head?_squeeze (lines.map (renderLine (commonIndentation lines)))
  rw [Option.mem_def, renderLines] at h
  rw [Option.mem_def, ← hrest, List.head?_append, h, Option.some_or]

theorem isBlankText_of_mem_renderLines (h : shown ∈ renderLines lines) :
    Text.isBlankText shown = shown.isEmpty := by
  obtain ⟨line, hline, rfl⟩ := exists_of_mem_renderLines h
  rw [isEmpty_renderLine hline]
  cases hvisible : isInvisible line with
  | true => rw [renderLine_of_isInvisible hvisible]; rfl
  | false =>
      exact isBlankText_renderLine hvisible (commonIndentation_le (mem_visible_iff.mpr ⟨hline, hvisible⟩))

theorem ending_of_mem_renderLines (h : shown ∈ renderLines lines) :
    ∀ c ∈ shown.getLast?, Text.isBlank c = false := by
  obtain ⟨line, hline, rfl⟩ := exists_of_mem_renderLines h
  cases hvisible : isInvisible line with
  | true => rw [renderLine_of_isInvisible hvisible]; simp
  | false =>
      exact ending_renderLine hvisible (commonIndentation_le (mem_visible_iff.mpr ⟨hline, hvisible⟩))

theorem newline_not_mem_of_mem_renderLines (hfeed : ∀ line ∈ lines, '\n' ∉ line)
    (h : shown ∈ renderLines lines) : '\n' ∉ shown := by
  obtain ⟨line, hline, rfl⟩ := exists_of_mem_renderLines h
  cases hvisible : isInvisible line with
  | true => rw [renderLine_of_isInvisible hvisible]; simp
  | false =>
      exact newline_not_mem_renderLine (hfeed line hline) hvisible
        (commonIndentation_le (mem_visible_iff.mpr ⟨hline, hvisible⟩))

/-- The lines that are not blank are the visible ones, in their order. -/
theorem filter_renderLines (lines : List Line) :
    (renderLines lines).filter (fun shown => !Text.isBlankText shown) =
      (visible lines).map (renderLine (commonIndentation lines)) := by
  have hblank : ∀ shown ∈ renderLines lines, (!Text.isBlankText shown) = !shown.isEmpty :=
    fun shown h => congrArg _ (isBlankText_of_mem_renderLines h)
  have hempty : ∀ line ∈ lines,
      (!(renderLine (commonIndentation lines) line).isEmpty) = !isInvisible line :=
    fun line h => congrArg _ (isEmpty_renderLine h)
  rw [List.filter_congr hblank, renderLines, filter_dropEmptyEnd, filter_squeeze, List.filter_map,
    visible, ← List.filter_congr hempty]
  rfl

theorem lines_render (hfeed : ∀ line ∈ lines, '\n' ∉ line) :
    Text.lines (render lines).toList = renderLines lines := by
  rw [render, String.toList_ofList]
  apply Text.lines_joinWith
  · exact fun shown h => newline_not_mem_of_mem_renderLines hfeed h
  · intro shown h hreturn
    have hblank := ending_of_mem_renderLines h _ hreturn
    revert hblank
    decide
  · exact getLast?_dropEmptyEnd _

end RenderLines

/-- The text shows a block: it is free of blank lines at its ends, of neighbouring blank lines and of blanks
at the end of a line, and has the visible lines of the block in their order. If there are only ASCII
blanks in front of these, each has lost what the least indented one has, and no more. -/
structure Shows (lines : List Line) (text : List Char) : Prop where
  joined : Text.joinWith ['\n'] (Text.lines text) = text
  first : ∀ line ∈ (Text.lines text).head?, Text.isBlankText line = false
  last : ∀ line ∈ (Text.lines text).getLast?, Text.isBlankText line = false
  spaced : (Text.lines text).IsChain fun line next =>
    ¬(Text.isBlankText line = true ∧ Text.isBlankText next = true)
  ending : ∀ line ∈ Text.lines text, ∀ c ∈ line.getLast?, Text.isBlank c = false
  texts : ((Text.lines text).filter fun line => !Text.isBlankText line).map Text.trim =
    (visible lines).map fun line => unmarked (Text.trim line)
  dedented : (∀ line ∈ visible lines, IsAsciiIndented line) → visible lines ≠ [] →
    ∃ least ∈ (visible lines).map depth,
      (∀ line ∈ visible lines, least ≤ depth line) ∧
        ((Text.lines text).filter fun line => !Text.isBlankText line) =
          (visible lines).map fun line => unmarked (Text.trimEnd (line.drop least))

theorem filter_renderLines_of_ascii {lines : List Line} (h : ∀ line ∈ visible lines, IsAsciiIndented line)
    (hne : visible lines ≠ []) :
    ∃ least ∈ (visible lines).map depth, (∀ line ∈ visible lines, least ≤ depth line) ∧
      (renderLines lines).filter (fun line => !Text.isBlankText line) =
        (visible lines).map fun line => unmarked (Text.trimEnd (line.drop least)) := by
  have hdepth : (visible lines).map indentation = (visible lines).map depth :=
    List.map_congr_left fun line hline => indentation_of_ascii (h line hline)
  have hcommon : commonIndentation lines = minimum ((visible lines).map depth) := by
    rw [← hdepth]
    rfl
  have hdepths : (visible lines).map depth ≠ [] := by simpa using hne
  obtain ⟨hmem, hle⟩ := minimum_mem hdepths
  rw [← hcommon] at hmem hle
  have hleast : ∀ line ∈ visible lines, commonIndentation lines ≤ depth line :=
    fun line hline => hle _ (List.mem_map_of_mem hline)
  refine ⟨_, hmem, hleast, ?_⟩
  rw [filter_renderLines]
  refine List.map_congr_left ?_
  intro line hline
  exact renderLine_of_ascii (h line hline) (mem_visible_iff.mp hline).2 (hleast line hline)

/-- However the lines of a block are written, its text shows the block. -/
theorem shows_render {lines : List Line} (hfeed : ∀ line ∈ lines, '\n' ∉ line) :
    Shows lines (render lines).toList := by
  have hsome : ∀ shown ∈ renderLines lines, shown ≠ [] → Text.isBlankText shown = false := by
    intro shown h hne
    rw [isBlankText_of_mem_renderLines h, List.isEmpty_eq_false_iff]
    exact hne
  have hempty : ∀ shown ∈ renderLines lines, Text.isBlankText shown = true → shown = [] := by
    intro shown h hblank
    rw [isBlankText_of_mem_renderLines h] at hblank
    exact List.isEmpty_iff.mp hblank
  constructor
  all_goals rw [lines_render hfeed]
  · rw [render, String.toList_ofList]
  · intro shown h
    exact hsome shown (List.mem_of_mem_head? h) (head?_renderLines shown h)
  · intro shown h
    exact hsome shown (List.mem_of_getLast? h) (getLast?_dropEmptyEnd _ shown h)
  · have hchain := isChain_squeeze true (lines.map (renderLine (commonIndentation lines)))
    obtain ⟨rest, hrest⟩ :=
      dropEmptyEnd_isPrefix (squeeze true (lines.map (renderLine (commonIndentation lines))))
    rw [← hrest] at hchain
    refine hchain.left_of_append.imp_of_mem_imp ?_
    intro line next hline hnext hspaced hblank
    exact hspaced ⟨hempty line hline hblank.1, hempty next hnext hblank.2⟩
  · exact fun shown h => ending_of_mem_renderLines h
  · rw [filter_renderLines, List.map_map]
    refine List.map_congr_left ?_
    intro line hline
    exact trim_renderLine (mem_visible_iff.mp hline).2 (commonIndentation_le hline)
  · exact filter_renderLines_of_ascii

/-- A block with a literal block in it. -/
def literalBlock : List Line :=
  [[], "  for instance ::".toList, "   ".toList, " ::".toList, [], "\t  a = 1".toList,
    "  b = 2  ".toList, []]

theorem shows_render_literalBlock : (∀ line ∈ literalBlock, '\n' ∉ line) ∧
    (render literalBlock).toList = "for instance:\n\n a = 1\nb = 2".toList ∧
    Shows literalBlock (render literalBlock).toList :=
  ⟨by decide, by decide +kernel, shows_render (by decide)⟩

end Doc

end NamelistCatalog
