import NamelistCatalog.Proofs.Declarations.Statement
import NamelistCatalog.Proofs.Summary
import NamelistCatalog.Proofs.Text.Lines

namespace NamelistCatalog

namespace TypeStatement

/-- The section of statements: the line of each of them. -/
def write (ss : List TypeStatement) : List Char := Text.unlines (ss.map line)

/-- The statement as it is read: its line without blanks at the end. -/
def text (s : TypeStatement) : List Char :=
  s.specification ++ ("::".toList ++ Text.trimEnd s.entityText)

variable {s : TypeStatement} {ss : List TypeStatement}

theorem append_colons (before rest : List Char) :
    before ++ ("::".toList ++ rest) = (before ++ [':']) ++ ':' :: rest := by
  simp

theorem dropReturn_line (s : TypeStatement) :
    Text.dropReturn s.line = s.specification ++ ("::".toList ++ Text.dropReturn s.entityText) := by
  rw [line, append_colons, Text.dropReturn_append_cons (by decide), append_colons]

theorem trimEnd_line (s : TypeStatement) : Text.trimEnd s.line = s.text := by
  rw [line, append_colons, Text.trimEnd_append_cons (by decide), text, append_colons]

namespace IsCanonical

theorem exists_keyword_cons (h : s.IsCanonical) :
    ∃ c rest, s.keyword = c :: rest ∧ Text.isBlank c = false ∧ c ≠ '!' := by
  obtain ⟨c, rest, hcons⟩ := List.exists_cons_of_ne_nil h.keyword_ne_nil
  have hmem : c ∈ s.keyword := by simp [hcons]
  refine ⟨c, rest, hcons, h.isTrimmed_keyword.1 c (by rw [hcons]; rfl), ?_⟩
  exact ne_of_isDeclarationChar (h.isDeclarationChar_keyword hmem) (by decide)

theorem endsSection_text (h : s.IsCanonical) : Declaration.endsSection s.text = false := by
  obtain ⟨first, hfirst, hparts⟩ := h.exists_splitTopLevel_specification
  have htyped : Declaration.typeOfSpec ((splitTopLevel ',' s.specification).headD []) ≠ .unknown := by
    rw [hparts, List.headD_cons, h.typeOfSpec_eq hfirst]
    exact beq_eq_false_iff_ne.mp s.kind.valueType_ne_unknown
  exact Declaration.endsSection_eq_false htyped (Text.trimEnd s.entityText)

theorem isPlainChar_of_mem_dimensionText (h : s.IsCanonical) {c : Char} (hc : c ∈ s.dimensionText) :
    Line.isPlainChar c = true := by
  unfold dimensionText at hc
  cases hdimension : s.dimension with
  | none =>
      rw [hdimension] at hc
      cases hc
  | some extents =>
      rw [hdimension] at hc
      dsimp only at hc
      have hword : (',' :: ' ' :: "dimension".toList).all Line.isPlainChar = true := by decide
      rw [← List.cons_append, ← List.cons_append] at hc
      rcases List.mem_append.mp hc with hc | hc
      · exact List.all_eq_true.mp hword c hc
      · exact isPlainChar_of_mem_parenthesized
          (fun t ht => (h.dimension t (by rw [hdimension]; exact ht)).1) hc

theorem isPlainChar_of_mem_specification (h : s.IsCanonical) {c : Char} (hc : c ∈ s.specification) :
    Line.isPlainChar c = true := by
  rcases List.mem_append.mp hc with hc | hc
  · rcases List.mem_append.mp hc with hc | hc
    · exact isPlainChar_of_isDeclarationChar (h.isDeclarationChar_keyword hc)
    · exact isPlainChar_of_mem_parenthesized (fun t ht => (h.selector t ht).1) hc
  · rcases List.mem_append.mp hc with hc | hc
    · exact h.isPlainChar_of_mem_dimensionText hc
    · rw [List.mem_singleton.mp hc]
      decide

theorem isClosedCode_entityText (h : s.IsCanonical) : Line.IsClosedCode s.entityText := by
  rw [entityText]
  have hall := h.entities
  generalize s.entities = es at hall ⊢
  induction es with
  | nil => exact Line.isClosedCode_plain (by simp [Text.joinWith])
  | cons e rest ih =>
      rw [List.forall_mem_cons] at hall
      cases rest with
      | nil => exact hall.1.isClosedCode_text
      | cons next more =>
          have hcomma : Line.IsClosedCode [','] := Line.isClosedCode_of_all (by decide)
          exact (hall.1.isClosedCode_text.append hcomma).append (ih hall.2)

theorem isClosedCode_line (h : s.IsCanonical) : Line.IsClosedCode s.line := by
  have hspecification : Line.IsClosedCode s.specification :=
    Line.isClosedCode_plain fun _ hc => h.isPlainChar_of_mem_specification hc
  have hcolons : Line.IsClosedCode "::".toList := Line.isClosedCode_of_all (by decide)
  exact hspecification.append (hcolons.append h.isClosedCode_entityText)

theorem newline_not_mem_entityText (h : s.IsCanonical) : '\n' ∉ s.entityText := by
  intro hmem
  rcases Text.mem_joinWith hmem with hmem | ⟨part, hpart, hmem⟩
  · simp at hmem
  · obtain ⟨e, he, rfl⟩ := List.mem_map.mp hpart
    exact (h.entities e he).newline_not_mem_text hmem

theorem newline_not_mem_line (h : s.IsCanonical) : '\n' ∉ s.line := by
  intro hmem
  rcases List.mem_append.mp hmem with hmem | hmem
  · exact absurd (h.isPlainChar_of_mem_specification hmem) (by decide)
  · rcases List.mem_append.mp hmem with hmem | hmem
    · simp at hmem
    · exact h.newline_not_mem_entityText hmem

theorem trim_dropReturn_line (h : s.IsCanonical) : Text.trim (Text.dropReturn s.line) = s.text := by
  obtain ⟨c, rest, hkeyword, hblank, -⟩ := h.exists_keyword_cons
  have hstart : Text.trimStart (Text.dropReturn s.line) = Text.dropReturn s.line := by
    rw [dropReturn_line, specification, typeText, hkeyword]
    exact List.dropWhile_cons_of_neg (by simp [hblank])
  rw [Text.trim, hstart, Text.trimEnd_dropReturn, trimEnd_line]

theorem isCodeless_dropReturn_line (h : s.IsCanonical) :
    Line.isCodeless (Text.dropReturn s.line) = false := by
  obtain ⟨c, rest, hkeyword, hblank, hmark⟩ := h.exists_keyword_cons
  obtain ⟨more, hmore⟩ : ∃ more, Text.dropReturn s.line = c :: more := by
    rw [dropReturn_line, specification, typeText, hkeyword]
    exact ⟨_, rfl⟩
  have hcomment : Line.isComment (c :: more) = false := by
    rw [Line.isComment, Text.trimStart, List.dropWhile_cons_of_neg (by simp [hblank])]
    simp [hmark]
  rw [Line.isCodeless, hmore, hcomment, Text.isBlankText_cons, hblank]
  rfl

theorem join_dropReturn_line (h : s.IsCanonical) (hend : s.text.getLast? ≠ some '&')
    (rest : List Line) : Statement.join (Text.dropReturn s.line) rest = (s.text, 0) := by
  have hcode : Line.IsCode (Text.dropReturn s.line) := by
    apply h.isClosedCode_line.code.of_isPrefix
    exact Text.dropReturn_isPrefix s.line
  have htrim := h.trim_dropReturn_line
  rw [Statement.join_of_isCode hcode (by rw [htrim]; exact hend), htrim]

end IsCanonical

theorem ofLinesFrom_lines (h : ∀ s ∈ ss, s.IsCanonical) (hend : ∀ s ∈ ss, s.text.getLast? ≠ some '&')
    (number : Nat) :
    CodeLine.ofLinesFrom number (ss.map fun s => Text.dropReturn s.line) =
      (ss.zipIdx number).map fun p => ⟨p.2, p.1.text⟩ := by
  induction ss generalizing number with
  | nil => rw [List.map_nil, CodeLine.ofLinesFrom]; rfl
  | cons s rest ih =>
      rw [List.forall_mem_cons] at h hend
      have hcode : ¬Line.isCodeless (Text.dropReturn s.line) = true := by
        rw [h.1.isCodeless_dropReturn_line]
        exact Bool.false_ne_true
      have htext : s.text.isEmpty = false := by
        rw [List.isEmpty_eq_false_iff, text]
        simp
      rw [List.map_cons, CodeLine.ofLinesFrom, if_neg hcode, h.1.join_dropReturn_line hend.1]
      dsimp only
      rw [htext, List.drop_zero, Nat.add_zero, ih h.2 hend.2, List.zipIdx_cons, List.map_cons]
      rfl

end TypeStatement

/-- A section written for canonical type statements of which none ends in an ampersand, blanks at its
end aside, declares the entities of the statements in their order, each with the type and the line of
its statement and the rank of its own dimensions or else of the attribute. -/
theorem DeclarationsDocument.parse_written (origin : String) {ss : List TypeStatement}
    (hcanonical : ∀ s ∈ ss, s.IsCanonical)
    (hend : ∀ s ∈ ss, (Text.trimEnd s.line).getLast? ≠ some '&') :
    parse origin (TypeStatement.write ss) =
      { declarations := (ss.zipIdx 1).flatMap fun p => p.1.declarations p.2
        skipped := 0
        warnings := [] } := by
  have hlines : Text.lines (TypeStatement.write ss) = ss.map fun s => Text.dropReturn s.line := by
    rw [TypeStatement.write, Text.lines_unlines_eq_map, List.map_map]
    · rfl
    · intro line hline
      obtain ⟨s, hs, rfl⟩ := List.mem_map.mp hline
      exact (hcanonical s hs).newline_not_mem_line
  have htext : ∀ s ∈ ss, s.text.getLast? ≠ some '&' := by
    intro s hs
    rw [← TypeStatement.trimEnd_line]
    exact hend s hs
  have hmem : ∀ p ∈ ss.zipIdx 1, p.1.IsCanonical := by
    intro p hp
    exact hcanonical p.1 (List.fst_mem_of_mem_zipIdx hp)
  have hsection : ∀ statement ∈ (ss.zipIdx 1).map fun p => CodeLine.mk p.2 p.1.text,
      (!Declaration.endsSection statement.text) = true := by
    intro statement hstatement
    obtain ⟨p, hp, rfl⟩ := List.mem_map.mp hstatement
    rw [(hmem p hp).endsSection_text]
    rfl
  have hstatements : ∀ p ∈ ss.zipIdx 1,
      (ofStatement origin ∘ fun p => CodeLine.mk p.2 p.1.text) p =
        { declarations := p.1.declarations p.2 } := by
    intro p hp
    rw [Function.comp_apply, TypeStatement.text, (hmem p hp).ofStatement_eq]
  rw [parse, hlines, CodeLine.ofLines, TypeStatement.ofLinesFrom_lines hcanonical htext,
    List.takeWhile_eq_self_iff.mpr hsection, List.map_map, List.map_congr_left hstatements,
    foldr_append_map]

/-- Commas, equals signs, double colons and parentheses in brackets and quotes, and both kinds of ranks. -/
def TypeStatement.gridAndTag : List TypeStatement :=
  [{ kind := .real
     keyword := "REAL".toList
     selector := some "kind=max(4, 8)".toList
     dimension := some "n".toList
     entities :=
       [{ name := "x_ctrl" },
        { name := "grid"
          extents := some "0:max(2, m), [3, 4]".toList
          init := some "reshape([1, 2], 'a :: (')".toList }] },
   { kind := .doublePrecision
     keyword := "Double Precision".toList
     entities := [{ name := "tag", length := some "8".toList, init := some "'it''s = ! &' ".toList }] }]

theorem DeclarationsDocument.parse_written_gridAndTag :
    (∀ s ∈ TypeStatement.gridAndTag, s.IsCanonical) ∧
      (∀ s ∈ TypeStatement.gridAndTag, (Text.trimEnd s.line).getLast? ≠ some '&') ∧
      parse "a" (TypeStatement.write TypeStatement.gridAndTag) =
        { declarations :=
            [{ name := "x_ctrl", valueType := .real, dim := 1, line := 1 },
             { name := "grid", valueType := .real, dim := 2, line := 1 },
             { name := "tag", valueType := .real, dim := 0, line := 2 }] } := by
  have hcanonical : ∀ s ∈ TypeStatement.gridAndTag, s.IsCanonical := by decide +kernel
  have hend : ∀ s ∈ TypeStatement.gridAndTag, (Text.trimEnd s.line).getLast? ≠ some '&' := by
    decide +kernel
  refine ⟨hcanonical, hend, ?_⟩
  rw [parse_written "a" hcanonical hend]
  decide +kernel

/-- Two statements of which the first has an initial value that ends in an ampersand and a blank. -/
def TypeStatement.spacedAmpersand : List TypeStatement :=
  [{ kind := .integer
     keyword := "integer".toList
     entities := [{ name := "a", init := some "1 & ".toList }] },
   { kind := .real, keyword := "real".toList, entities := [{ name := "b" }] }]

/-- A blank behind the ampersand does not keep the statement from going on at the next line. -/
theorem DeclarationsDocument.parse_spacedAmpersand :
    (∀ s ∈ TypeStatement.spacedAmpersand, s.IsCanonical) ∧
      (∀ s ∈ TypeStatement.spacedAmpersand, s.line.getLast? ≠ some '&') ∧
      parse "a" (TypeStatement.write TypeStatement.spacedAmpersand) =
        { declarations := [{ name := "a", valueType := .integer, dim := 0, line := 1 }] } ∧
      parse "a" (TypeStatement.write TypeStatement.spacedAmpersand) ≠
        { declarations :=
            (TypeStatement.spacedAmpersand.zipIdx 1).flatMap fun p => p.1.declarations p.2 } := by
  decide +kernel

end NamelistCatalog
