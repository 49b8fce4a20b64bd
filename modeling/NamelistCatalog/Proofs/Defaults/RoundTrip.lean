import NamelistCatalog.Proofs.Defaults
import NamelistCatalog.Proofs.Defaults.Parameter
import NamelistCatalog.Proofs.Text.Lines

namespace NamelistCatalog

namespace Parameter

/-- The document for parameters: the lines of each of them. -/
def write (ps : List Parameter) : List Char := Text.unlines (ps.flatMap lines)

/-- The documentation: its lines with line feeds between them. -/
def docText (p : Parameter) : String := String.ofList (Text.joinWith ['\n'] p.doc)

/-- The record of a parameter at a place among the records and with its assignment on a line. -/
def record (p : Parameter) (place line : Nat) : DefaultsRecord :=
  { name := p.name
    defaultValue := .literal (String.ofList p.literal)
    inferred := Literal.infer p.literal
    dim := (p.index.map rankOf).getD 0
    order := UInt32.ofNat place
    doc := p.docText
    line }

/-- The parameters with the lines of their assignments, when the first line has this number. -/
def numberedFrom (number : Nat) : List Parameter → List (Nat × Parameter)
  | [] => []
  | p :: rest => (number + p.doc.length + 1, p) :: numberedFrom (number + p.lines.length) rest

/-- What the lines of a parameter are when its assignment is on this line. -/
def items (p : Parameter) (line : Nat) : List DefaultsItem :=
  .header p.key ::
    (p.doc.map (fun text => .comment text.commentText) ++ [.statement line p.assignment])

variable {p : Parameter} {ps : List Parameter}

/-! The lines of the document. -/

theorem length_lines (p : Parameter) : p.lines.length = p.doc.length + 2 := by
  simp [lines]

theorem IsCanonical.of_mem_lines (h : p.IsCanonical) {line : Line} (hline : line ∈ p.lines) :
    '\n' ∉ line ∧ ∀ c ∈ line.getLast?, Text.isBlank c = false := by
  rcases List.mem_cons.mp hline with rfl | hline
  · have hname : '\n' ∉ p.name.toList := by
      intro hmem
      exact absurd (Name.isNameChar_of_isValid h.name hmem) (by decide)
    refine ⟨by simp [DocHeader.toComment, hname], ?_⟩
    rw [DocHeader.toComment, Text.getLast?_cons_right (by simp), Text.getLast?_cons_right (by simp)]
    exact (DocHeader.isTrimmed_title h.name).2
  · rcases List.mem_append.mp hline with hline | hline
    · obtain ⟨text, htext, rfl⟩ := List.mem_map.mp hline
      exact (h.doc.plain text htext).of_toComment
    · rw [List.mem_singleton.mp hline]
      exact ⟨h.newline_not_mem_assignment, h.isTrimmed_assignment.2⟩

theorem lines_write (h : ∀ p ∈ ps, p.IsCanonical) : Text.lines (write ps) = ps.flatMap lines := by
  apply Text.lines_unlines
  · intro line hline
    obtain ⟨p, hp, hline⟩ := List.mem_flatMap.mp hline
    exact ((h p hp).of_mem_lines hline).1
  · intro line hline hreturn
    obtain ⟨p, hp, hline⟩ := List.mem_flatMap.mp hline
    have hblank := ((h p hp).of_mem_lines hline).2 '\r' hreturn
    exact absurd hblank (by decide)

theorem map_snd_numberedFrom (number : Nat) (ps : List Parameter) :
    (numberedFrom number ps).map Prod.snd = ps := by
  induction ps generalizing number with
  | nil => rfl
  | cons p rest ih => rw [numberedFrom, List.map_cons, ih]

theorem numberedFrom_succ (number : Nat) (ps : List Parameter) :
    numberedFrom (number + 1) ps =
      ps.mapIdx fun i p => (number + ((ps.take (i + 1)).flatMap lines).length, p) := by
  induction ps generalizing number with
  | nil => rfl
  | cons p rest ih =>
      have hstart : number + 1 + p.lines.length = number + p.lines.length + 1 := by omega
      rw [numberedFrom, List.mapIdx_cons, hstart, ih]
      congr 1
      · simp [length_lines]
        omega
      · simp [Nat.add_assoc]

/-! The items of the document. -/

theorem ofLinesFrom_map_toComment {doc rest : List Line} (hplain : ∀ line ∈ doc, line.IsPlain)
    (hrest : rest.head?.any DocHeader.isUnderline = false) (number : Nat) :
    DefaultsItem.ofLinesFrom number (doc.map Line.toComment ++ rest) =
      doc.map (fun line => .comment line.commentText) ++
        DefaultsItem.ofLinesFrom (number + doc.length) rest := by
  induction doc generalizing number with
  | nil => rfl
  | cons line more ih =>
      rw [List.forall_mem_cons] at hplain
      have hnext : (more.map Line.toComment ++ rest).head?.any DocHeader.isUnderline = false := by
        cases more with
        | nil => exact hrest
        | cons next _ => exact (hplain.2 next List.mem_cons_self).not_isUnderline_toComment
      have hvisible : ¬Text.isBlankText line.toComment = true :=
        Bool.eq_false_iff.mp (Line.isBlankText_comment _)
      have hhash : ¬((Text.trimStart line.commentText).head? == some '#') = true := by
        rw [← Text.head?_trim, hplain.1.trim_commentText, beq_iff_eq]
        exact hplain.1.hash
      rw [List.map_cons, List.cons_append, DefaultsItem.ofLinesFrom, if_neg hvisible,
        hplain.1.commentBody?_toComment]
      dsimp only
      rw [hplain.1.ofComment?_commentText hnext]
      dsimp only
      rw [if_neg hhash, ih hplain.2, List.length_cons, Nat.add_assoc, Nat.add_comm 1]
      rfl

theorem ofLinesFrom_lines (h : p.IsCanonical) (rest : List Line) (number : Nat) :
    DefaultsItem.ofLinesFrom number (p.lines ++ rest) =
      p.items (number + p.doc.length + 1) ++
        DefaultsItem.ofLinesFrom (number + p.lines.length) rest := by
  have hheader : ¬Text.isBlankText (DocHeader.toComment p.name) = true :=
    Bool.eq_false_iff.mp (Line.isBlankText_comment _)
  have hnext : (p.assignment :: rest).head?.any DocHeader.isUnderline = false := by
    rw [List.head?_cons, Option.any_some, DocHeader.isUnderline, h.commentBody?_assignment]
  have hassignment : ∀ n, DefaultsItem.ofLinesFrom n (p.assignment :: rest) =
      .statement n p.assignment :: DefaultsItem.ofLinesFrom (n + 1) rest := by
    intro n
    rw [DefaultsItem.ofLinesFrom, if_neg (by simp [h.isBlankText_assignment]),
      h.commentBody?_assignment]
    dsimp only
    rw [h.join_assignment]
    rfl
  have hline : number + 1 + p.doc.length = number + p.doc.length + 1 := by omega
  rw [length_lines, lines, List.cons_append, DefaultsItem.ofLinesFrom, if_neg hheader,
    DocHeader.commentBody?_toComment h.name]
  dsimp only
  rw [DocHeader.ofComment?_toComment h.name]
  dsimp only
  rw [if_neg (by decide), Nat.add_zero, List.drop_zero, List.append_assoc, List.singleton_append,
    ofLinesFrom_map_toComment h.doc.plain hnext, hassignment, hline, items, key,
    List.cons_append, List.append_assoc, List.singleton_append]
  rfl

theorem ofLinesFrom_flatMap_lines (h : ∀ p ∈ ps, p.IsCanonical) (number : Nat) :
    DefaultsItem.ofLinesFrom number (ps.flatMap lines) =
      (numberedFrom number ps).flatMap fun q => q.2.items q.1 := by
  induction ps generalizing number with
  | nil => rw [List.flatMap_nil, DefaultsItem.ofLinesFrom]; rfl
  | cons p rest ih =>
      rw [List.forall_mem_cons] at h
      rw [List.flatMap_cons, ofLinesFrom_lines h.1, ih h.2, numberedFrom, List.flatMap_cons]

theorem map_docEvent_items (p : Parameter) (line : Nat) :
    (p.items line).map DefaultsItem.docEvent =
      Doc.blockEvents p.key (p.doc.map Line.commentText) := by
  simp [items, Doc.blockEvents, DefaultsItem.docEvent, Function.comp_def]

theorem filterMap_codeLine_items (p : Parameter) (line : Nat) :
    (p.items line).filterMap DefaultsItem.codeLine? = [⟨line, p.assignment⟩] := by
  have hcomments : (p.doc.map fun text => DefaultsItem.comment text.commentText).filterMap
      DefaultsItem.codeLine? = [] := by
    simp [DefaultsItem.codeLine?]
  rw [items, List.filterMap_cons_none rfl, List.filterMap_append, hcomments]
  rfl

theorem map_docEvent_flatMap_items (number : Nat) (ps : List Parameter) :
    ((numberedFrom number ps).flatMap fun q => q.2.items q.1).map DefaultsItem.docEvent =
      ps.flatMap fun p => Doc.blockEvents p.key (p.doc.map Line.commentText) := by
  rw [List.map_flatMap]
  simp only [map_docEvent_items]
  rw [← List.flatMap_map Prod.snd fun p : Parameter =>
    Doc.blockEvents p.key (p.doc.map Line.commentText), map_snd_numberedFrom]

theorem filterMap_codeLine_flatMap_items (number : Nat) (ps : List Parameter) :
    ((numberedFrom number ps).flatMap fun q => q.2.items q.1).filterMap DefaultsItem.codeLine? =
      (numberedFrom number ps).map fun q => ⟨q.1, q.2.assignment⟩ := by
  rw [List.filterMap_flatMap, List.map_eq_flatMap]
  simp only [filterMap_codeLine_items]

/-! The documentation and the records. -/

theorem foldl_docEvents (h : ∀ p ∈ ps, p.IsCanonical) (texts : Doc.Texts) :
    (ps.flatMap fun p => Doc.blockEvents p.key (p.doc.map Line.commentText)).foldl
        Doc.Collector.step { texts } =
      { texts := texts ++ ps.map fun p => (p.key, p.docText) } := by
  induction ps generalizing texts with
  | nil => rw [List.map_nil, List.append_nil]; rfl
  | cons p rest ih =>
      rw [List.forall_mem_cons] at h
      have hrender : Doc.render (p.doc.map Line.commentText) = p.docText :=
        Doc.render_map_commentText h.1.doc
      rw [List.flatMap_cons, List.foldl_append, Doc.Collector.foldl_blockEvents, ih h.2, hrender,
        List.append_assoc, List.singleton_append, List.map_cons]

theorem ofEvents_eq (h : ∀ p ∈ ps, p.IsCanonical) :
    Doc.ofEvents (ps.flatMap fun p => Doc.blockEvents p.key (p.doc.map Line.commentText)) =
      ps.map fun p => (p.key, p.docText) := by
  rw [Doc.ofEvents, foldl_docEvents h []]
  rfl

/-- The record of a parameter before its documentation is known. -/
def draft (p : Parameter) (place line : Nat) : DefaultsRecord := { p.record place line with doc := "" }

theorem step_assignment {origin : String} {r : DefaultsReader} (h : p.IsCanonical)
    (hfresh : r.records.lookup p.key = none) (hcount : r.records.length < UInt32.size) (line : Nat) :
    r.step origin ⟨line, p.assignment⟩ =
      { r with records := (p.key, p.draft r.records.length line) :: r.records } := by
  obtain ⟨c, rest, heq, hchar⟩ := h.exists_assignment_cons
  have hdelimiter : ¬DefaultsReader.isDelimiter p.assignment = true := by
    have hgroup : c ≠ '&' := Name.ne_of_isNameChar hchar (by decide)
    have hend : c ≠ '/' := Name.ne_of_isNameChar hchar (by decide)
    simp [DefaultsReader.isDelimiter, heq, hgroup, hend]
  have hliteral : p.literal.isEmpty = false := by
    rw [List.isEmpty_eq_false_iff]
    exact h.literal
  have hplace : min r.records.length 4294967295 = r.records.length :=
    Nat.min_eq_left (Nat.le_of_lt_succ hcount)
  have hkey : Name.fold (String.ofList p.name.toList) = p.key := by
    rw [String.ofList_toList, key]
  rw [DefaultsReader.step, if_neg hdelimiter, h.ofStatement?_assignment]
  dsimp only
  rw [hkey, hfresh]
  dsimp only
  rw [DefaultsReader.fresh, h.literal_eq, hliteral, hplace]
  simp [draft, record]

theorem foldl_step (origin : String) {qs : List (Nat × Parameter)} {r : DefaultsReader}
    (h : ∀ q ∈ qs, q.2.IsCanonical) (hnodup : (qs.map fun q => q.2.key).Nodup)
    (hfresh : ∀ q ∈ qs, r.records.lookup q.2.key = none)
    (hcount : r.records.length + qs.length ≤ UInt32.size) :
    (qs.map fun q => ⟨q.1, q.2.assignment⟩).foldl (DefaultsReader.step origin) r =
      { r with
        records :=
          (qs.mapIdx fun i q => (q.2.key, q.2.draft (r.records.length + i) q.1)).reverse ++
            r.records } := by
  -- The reader varies: each statement is read by one that has all earlier names and none of the rest.
  induction qs generalizing r with
  | nil => rfl
  | cons q rest ih =>
      rw [List.forall_mem_cons] at h hfresh
      rw [List.map_cons, List.nodup_cons] at hnodup
      rw [List.length_cons] at hcount
      have hrest : ∀ q' ∈ rest, List.lookup q'.2.key
          ((q.2.key, q.2.draft r.records.length q.1) :: r.records) = none := by
        intro q' hq'
        have hne : (q'.2.key == q.2.key) = false := by
          rw [beq_eq_false_iff_ne]
          intro heq
          exact hnodup.1 (heq ▸ List.mem_map_of_mem hq')
        rw [List.lookup_cons, hne]
        exact hfresh.2 q' hq'
      rw [List.map_cons, List.foldl_cons, step_assignment h.1 hfresh.1 (by omega),
        ih h.2 hnodup.2 hrest (by rw [List.length_cons]; omega), List.mapIdx_cons,
        List.reverse_cons, List.append_assoc, List.singleton_append]
      simp only [List.length_cons, Nat.add_zero, Nat.add_assoc, Nat.add_comm 1]

theorem foldl_step_numberedFrom (origin : String) (h : ∀ p ∈ ps, p.IsCanonical)
    (hkeys : (ps.map key).Nodup) (hcount : ps.length < UInt32.size) :
    ((numberedFrom 1 ps).map fun q => ⟨q.1, q.2.assignment⟩).foldl (DefaultsReader.step origin) {} =
      { records := (ps.mapIdx fun i p =>
          (p.key, p.draft i ((ps.take (i + 1)).flatMap lines).length)).reverse } := by
  have hsnd := map_snd_numberedFrom 1 ps
  have hcanonical : ∀ q ∈ numberedFrom 1 ps, q.2.IsCanonical := by
    intro q hq
    apply h
    rw [← hsnd]
    exact List.mem_map_of_mem hq
  have hnodup : ((numberedFrom 1 ps).map fun q => q.2.key).Nodup := by
    rw [← hsnd, List.map_map] at hkeys
    exact hkeys
  have hlength : (numberedFrom 1 ps).length = ps.length := by
    rw [← List.length_map Prod.snd, hsnd]
  have hnumbered : numberedFrom 1 ps =
      ps.mapIdx fun i p => (((ps.take (i + 1)).flatMap lines).length, p) := by
    simpa using numberedFrom_succ 0 ps
  rw [foldl_step origin hcanonical hnodup (fun _ _ => rfl) (by simp [hlength]; omega), hnumbered,
    List.mapIdx_mapIdx]
  simp [Function.comp_def]

theorem lookup_docText (hkeys : (ps.map key).Nodup) {p : Parameter} (hp : p ∈ ps) :
    (ps.map fun p => (p.key, p.docText)).lookup p.key = some p.docText := by
  rw [Association.lookup_eq_some_iff_mem (by simpa [Function.comp_def] using hkeys)]
  exact List.mem_map_of_mem hp

end Parameter

/-- A document written for canonical parameters of different names gives these parameters in their
order, with the names, literals, index lists and documentation that were written, and nothing is
skipped or warned about. -/
theorem DefaultsDocument.parse_write (origin : String) {ps : List Parameter}
    (hcanonical : ∀ p ∈ ps, p.IsCanonical) (hkeys : (ps.map Parameter.key).Nodup)
    (hcount : ps.length < UInt32.size) :
    parse origin (Parameter.write ps) =
      { records := ps.mapIdx fun i p =>
          p.record i ((ps.take (i + 1)).flatMap Parameter.lines).length
        skipped := 0
        warnings := [] } := by
  rw [parse, Parameter.lines_write hcanonical, Parameter.ofLinesFrom_flatMap_lines hcanonical, ofItems,
    Parameter.map_docEvent_flatMap_items, Parameter.filterMap_codeLine_flatMap_items,
    Parameter.ofEvents_eq hcanonical,
    Parameter.foldl_step_numberedFrom origin hcanonical hkeys hcount]
  simp only [List.reverse_reverse, List.reverse_nil]
  congr 1
  -- What is left of a record is its documentation, which is looked up under its name.
  refine List.ext_getElem (by simp) ?_
  intro i hi _
  have hplace : i < ps.length := by simpa using hi
  simp only [List.getElem_map, List.getElem_mapIdx]
  rw [Parameter.lookup_docText hkeys (List.getElem_mem hplace)]
  rfl

/-- An array with documentation and a scalar without. -/
def Parameter.arrayAndScalar : List Parameter :=
  [{ name := "X_ctrl"
     index := some "1:n, 2".toList
     literal := "'a ! b', 1".toList
     doc := ["  Controls:".toList, [], "of the run".toList] },
   { name := "mass", literal := "1d0".toList }]

theorem DefaultsDocument.parse_write_arrayAndScalar :
    (∀ p ∈ Parameter.arrayAndScalar, p.IsCanonical) ∧
      (Parameter.arrayAndScalar.map Parameter.key).Nodup ∧
      Parameter.arrayAndScalar.length < UInt32.size ∧
      parse "a" (Parameter.write Parameter.arrayAndScalar) =
        { records :=
            [{ name := "X_ctrl", defaultValue := .literal "'a ! b', 1"
               inferred := ⟨.character, false⟩, dim := 2, order := 0
               doc := "  Controls:\n\nof the run", line := 5 },
             { name := "mass", defaultValue := .literal "1d0", inferred := ⟨.real, false⟩, dim := 0
               order := 1, line := 7 }] } := by
  have hcanonical : ∀ p ∈ Parameter.arrayAndScalar, p.IsCanonical := by decide
  have hkeys : (Parameter.arrayAndScalar.map Parameter.key).Nodup := by decide +kernel
  have hcount : Parameter.arrayAndScalar.length < UInt32.size := by decide
  refine ⟨hcanonical, hkeys, hcount, ?_⟩
  rw [parse_write "a" hcanonical hkeys hcount]
  decide +kernel

end NamelistCatalog
