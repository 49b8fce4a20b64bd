import NamelistCatalog.Defaults
import NamelistCatalog.Proofs.Defaults.Doc

namespace NamelistCatalog

/-- What a defaults document says about one parameter. -/
structure Parameter where
  name : String
  index : Option (List Char) := none
  literal : List Char
  doc : List Line := []

namespace Parameter

/-- The index list in parentheses, if there is one. -/
def indexText (p : Parameter) : List Char :=
  match p.index with
  | none => []
  | some index => '(' :: (index ++ [')'])

def target (p : Parameter) : List Char := p.name.toList ++ (p.indexText ++ [' ', '=', ' '])

def assignment (p : Parameter) : Line := p.target ++ p.literal

def lines (p : Parameter) : List Line :=
  DocHeader.toComment p.name :: (p.doc.map Line.toComment ++ [p.assignment])

def key (p : Parameter) : String := Name.fold p.name

/-- A parameter whose lines say what it is: nothing in the index list or in the literal ends the
line, the assignment or the literal early. -/
@[mk_iff]
structure IsCanonical (p : Parameter) : Prop where
  name : Name.isValid p.name = true
  index : ∀ index ∈ p.index, ∀ c ∈ index, c ≠ '=' ∧ c ≠ '!' ∧ isQuote c = false ∧ c ≠ '\n'
  literal : p.literal ≠ []
  trimmed : Text.IsTrimmed p.literal
  feed : '\n' ∉ p.literal
  ending : ∀ c ∈ p.literal.getLast?, c ≠ ',' ∧ c ≠ '&'
  code : Line.IsCode p.literal
  doc : Doc.IsPlain p.doc

instance (p : Parameter) : Decidable p.IsCanonical :=
  haveI : Decidable (∀ index ∈ p.index, ∀ c ∈ index,
      c ≠ '=' ∧ c ≠ '!' ∧ isQuote c = false ∧ c ≠ '\n') :=
    decidable_of_iff
      (p.index.all fun index => index.all fun c =>
        c != '=' && (c != '!' && (!isQuote c && c != '\n')))
      (by simp [Option.all_eq_true])
  haveI : Decidable (∀ c ∈ p.literal.getLast?, c ≠ ',' ∧ c ≠ '&') :=
    decidable_of_iff (p.literal.getLast?.all fun c => c != ',' && c != '&')
      (by simp [Option.all_eq_true])
  decidable_of_iff' _ p.isCanonical_iff

end Parameter

namespace Parameter.IsCanonical

variable {p : Parameter}

theorem exists_name_cons (h : p.IsCanonical) :
    ∃ c rest, p.name.toList = c :: rest ∧ Name.isNameChar c = true := by
  obtain ⟨c, rest, hname⟩ := List.exists_cons_of_ne_nil (Name.toList_ne_nil_of_isValid h.name)
  refine ⟨c, rest, hname, Name.isNameChar_of_isValid h.name ?_⟩
  rw [hname]
  exact List.mem_cons_self

theorem of_mem_indexText (h : p.IsCanonical) {c : Char} (hc : c ∈ p.indexText) :
    c ≠ '=' ∧ c ≠ '!' ∧ isQuote c = false ∧ c ≠ '\n' := by
  unfold indexText at hc
  cases hindex : p.index with
  | none =>
      rw [hindex] at hc
      cases hc
  | some index =>
      rw [hindex] at hc
      rcases List.mem_cons.mp hc with rfl | hc
      · decide
      · rcases List.mem_append.mp hc with hc | hc
        · exact h.index index hindex c hc
        · rw [List.mem_singleton.mp hc]
          decide

theorem of_mem_target (h : p.IsCanonical) {c : Char} (hc : c ∈ p.target) :
    c ≠ '!' ∧ isQuote c = false ∧ c ≠ '\n' := by
  rcases List.mem_append.mp hc with hc | hc
  · have hne : ∀ d, Name.isNameChar d = false → c ≠ d := fun d hd =>
      Name.ne_of_isNameChar (Name.isNameChar_of_isValid h.name hc) hd
    refine ⟨hne '!' (by decide), ?_, hne '\n' (by decide)⟩
    rw [isQuote, Bool.or_eq_false_iff, beq_eq_false_iff_ne, beq_eq_false_iff_ne]
    exact ⟨hne '\x27' (by decide), hne '\x22' (by decide)⟩
  · rcases List.mem_append.mp hc with hc | hc
    · exact (h.of_mem_indexText hc).2
    · simp only [List.mem_cons, List.not_mem_nil, or_false] at hc
      rcases hc with rfl | rfl | rfl
      · decide
      · decide
      · decide

theorem exists_assignment_cons (h : p.IsCanonical) :
    ∃ c rest, p.assignment = c :: rest ∧ Name.isNameChar c = true := by
  obtain ⟨c, rest, hname, hchar⟩ := h.exists_name_cons
  refine ⟨c, rest ++ (p.indexText ++ [' ', '=', ' ']) ++ p.literal, ?_, hchar⟩
  rw [assignment, target, hname]
  rfl

theorem isTrimmed_assignment (h : p.IsCanonical) : Text.IsTrimmed p.assignment := by
  obtain ⟨c, rest, hname, hchar⟩ := h.exists_name_cons
  have htarget : p.target = c :: (rest ++ (p.indexText ++ [' ', '=', ' '])) := by
    rw [target, hname]
    rfl
  refine Text.isTrimmed_append (by simp [htarget]) h.literal ?_ h.trimmed.2
  intro d hd
  rw [htarget, List.head?_cons, Option.mem_some_iff] at hd
  rw [← hd]
  exact Name.isBlank_of_isNameChar hchar

theorem isCode_assignment (h : p.IsCanonical) : Line.IsCode p.assignment :=
  (Line.isClosedCode_plain fun _ hc =>
    Line.isPlainChar_iff.mpr (h.of_mem_target hc)).isCode_append h.code

theorem getLast?_assignment (h : p.IsCanonical) : p.assignment.getLast? = p.literal.getLast? :=
  Text.getLast?_append_right h.literal

theorem newline_not_mem_assignment (h : p.IsCanonical) : '\n' ∉ p.assignment := by
  intro hmem
  rcases List.mem_append.mp hmem with hmem | hmem
  · exact (h.of_mem_target hmem).2.2 rfl
  · exact h.feed hmem

theorem isBlankText_assignment (h : p.IsCanonical) : Text.isBlankText p.assignment = false := by
  obtain ⟨c, rest, heq, hchar⟩ := h.exists_assignment_cons
  rw [heq, Text.isBlankText_cons, Name.isBlank_of_isNameChar hchar, Bool.false_and]

theorem commentBody?_assignment (h : p.IsCanonical) : p.assignment.commentBody? = none := by
  obtain ⟨c, rest, heq, hchar⟩ := h.exists_assignment_cons
  rw [heq]
  exact Line.commentBody?_eq_none (Name.isBlank_of_isNameChar hchar)
    (Name.ne_of_isNameChar hchar (by decide)) rest

theorem join_assignment (h : p.IsCanonical) (rest : List Line) :
    Statement.join p.assignment rest = (p.assignment, 0) := by
  refine Statement.join_eq h.isCode_assignment h.isTrimmed_assignment ?_ rest
  intro hend
  rw [h.getLast?_assignment] at hend
  exact (h.ending '&' hend).2 rfl

theorem index_eq_of_split {index : List Char} (hindex : ∀ c ∈ index, c ≠ '=')
    (literal : List Char) :
    (index ++ [')', ' ', '=', ' '] ++ literal).takeWhile (· != '=') = index ++ [')', ' '] ∧
      (index ++ [')', ' ', '=', ' '] ++ literal).dropWhile (· != '=') = '=' :: ' ' :: literal := by
  have hplain : ∀ c ∈ index ++ [')', ' '], (c != '=') = true := by
    intro c hc
    rw [bne_iff_ne]
    rcases List.mem_append.mp hc with hc | hc
    · exact hindex c hc
    · rintro rfl
      simp at hc
  have hsplit : index ++ [')', ' ', '=', ' '] ++ literal =
      (index ++ [')', ' ']) ++ '=' :: ' ' :: literal := by simp
  rw [hsplit, List.takeWhile_append_of_pos hplain, List.dropWhile_append_of_pos hplain,
    List.takeWhile_cons_of_neg (by decide), List.dropWhile_cons_of_neg (by decide), List.append_nil]
  exact ⟨rfl, rfl⟩

/-- The assignment is read back as the name, the index list, and the literal after a space. -/
theorem ofStatement?_assignment (h : p.IsCanonical) :
    Assignment.ofStatement? p.assignment = some ⟨p.name.toList, p.index, ' ' :: p.literal⟩ := by
  have hname : ∀ c ∈ p.name.toList, Name.isNameChar c = true :=
    fun c hc => Name.isNameChar_of_isValid h.name hc
  have hidentifier : Name.isIdentifier p.name.toList = true := h.name
  have hassignment : p.assignment = p.name.toList ++ (p.indexText ++ ([' ', '=', ' '] ++ p.literal)) := by
    rw [assignment, target, List.append_assoc, List.append_assoc]
  rw [Assignment.ofStatement?, hassignment, List.takeWhile_append_of_pos hname,
    List.dropWhile_append_of_pos hname, indexText]
  cases hindex : p.index with
  | none =>
      have hstart : Text.trimStart ([' ', '=', ' '] ++ p.literal) = '=' :: ' ' :: p.literal := by
        rfl
      dsimp only
      rw [List.nil_append, List.cons_append, List.takeWhile_cons_of_neg (by decide),
        List.dropWhile_cons_of_neg (by decide), List.append_nil, hidentifier, ← List.cons_append,
        hstart]
      rfl
  | some index =>
      obtain ⟨hbefore, hafter⟩ :=
        index_eq_of_split (fun c hc => (h.index index hindex c hc).1) p.literal
      have hstart : Text.trimStart ('(' :: (index ++ [')', ' ', '=', ' '] ++ p.literal)) =
          '(' :: (index ++ [')', ' ', '=', ' '] ++ p.literal) :=
        List.dropWhile_cons_of_neg (by decide)
      have hclose : Text.trimEnd (index ++ [')', ' ']) = index ++ [')'] := by
        have hconcat : index ++ [')', ' '] = index ++ [')'] ++ [' '] := by simp
        rw [hconcat, Text.trimEnd_concat (by decide), Text.trimEnd, Text.dropEndWhile_eq_self]
        rw [Text.getLast?_append_right (by simp)]
        rintro c ⟨⟩
        decide
      have htail : '(' :: (index ++ [')']) ++ ([' ', '=', ' '] ++ p.literal) =
          '(' :: (index ++ [')', ' ', '=', ' '] ++ p.literal) := by simp
      dsimp only
      rw [htail, List.takeWhile_cons_of_neg (by decide), List.dropWhile_cons_of_neg (by decide),
        List.append_nil, hidentifier, hstart, if_neg (by decide)]
      simp only [hafter, hbefore, hclose, Text.dropEnd?_append, Option.map_some]

theorem literal_eq (h : p.IsCanonical) :
    Assignment.literal ⟨p.name.toList, p.index, ' ' :: p.literal⟩ = p.literal := by
  have hcomma : Text.dropEndWhile (· == ',') p.literal = p.literal := by
    apply Text.dropEndWhile_eq_self
    intro c hc
    rw [beq_eq_false_iff_ne]
    exact (h.ending c hc).1
  rw [Assignment.literal, Text.trim_cons (by decide), Text.trim_eq_self_iff.mpr h.trimmed, hcomma,
    Text.trimEnd, Text.dropEndWhile_eq_self h.trimmed.2]

end Parameter.IsCanonical

end NamelistCatalog
