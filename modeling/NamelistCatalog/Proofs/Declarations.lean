import NamelistCatalog.Declarations

namespace NamelistCatalog.DeclarationsDocument

theorem append_assoc (a b c : DeclarationsDocument) :
    (a.append b).append c = a.append (b.append c) := by
  simp only [append, List.append_assoc, Nat.add_assoc]

theorem empty_append (a : DeclarationsDocument) : append {} a = a := by
  simp only [append, List.nil_append, Nat.zero_add]

theorem foldr_append_append (parts more : List DeclarationsDocument) :
    (parts ++ more).foldr append {} = (parts.foldr append {}).append (more.foldr append {}) := by
  induction parts with
  | nil => exact (empty_append _).symm
  | cons part rest ih =>
      rw [List.cons_append, List.foldr_cons, List.foldr_cons, ih, append_assoc]

theorem declarations_foldr_append (parts : List DeclarationsDocument) :
    (parts.foldr append {}).declarations = parts.flatMap declarations := by
  induction parts with
  | nil => rfl
  | cons part rest ih =>
      rw [List.foldr_cons, List.flatMap_cons, ← ih]
      rfl

theorem warnings_foldr_append (parts : List DeclarationsDocument) :
    (parts.foldr append {}).warnings = parts.flatMap warnings := by
  induction parts with
  | nil => rfl
  | cons part rest ih =>
      rw [List.foldr_cons, List.flatMap_cons, ← ih]
      rfl

theorem foldr_append_map {α : Type} (parts : List α) (f : α → List Declaration) :
    (parts.map fun part => { declarations := f part }).foldr append {} =
      { declarations := parts.flatMap f } := by
  induction parts with
  | nil => rfl
  | cons part rest ih =>
      rw [List.map_cons, List.foldr_cons, ih]
      rfl

theorem isValid_of_mem_ofTarget {origin : String} {line : Nat} {valueType : ValueType}
    {attributeRank : UInt8} {target : List Char} {d : Declaration}
    (h : d ∈ (ofTarget origin line valueType attributeRank target).declarations) :
    Name.isValid d.name = true := by
  unfold ofTarget at h
  dsimp only at h
  split at h
  · rename_i hvalid
    rw [List.mem_singleton.mp h]
    exact hvalid
  · cases h

theorem isValid_of_mem_ofStatement {origin : String} {statement : CodeLine} {d : Declaration}
    (h : d ∈ (ofStatement origin statement).declarations) : Name.isValid d.name = true := by
  unfold ofStatement at h
  split at h
  · cases h
  · dsimp only at h
    split at h
    · cases h
    · rw [declarations_foldr_append, List.mem_flatMap] at h
      obtain ⟨part, hpart, hd⟩ := h
      obtain ⟨target, -, rfl⟩ := List.mem_map.mp hpart
      exact isValid_of_mem_ofTarget hd

theorem isValid_of_mem_parse {origin : String} {text : List Char} {d : Declaration}
    (h : d ∈ (parse origin text).declarations) : Name.isValid d.name = true := by
  rw [parse, declarations_foldr_append, List.mem_flatMap] at h
  obtain ⟨part, hpart, hd⟩ := h
  obtain ⟨statement, -, rfl⟩ := List.mem_map.mp hpart
  exact isValid_of_mem_ofStatement hd

theorem kind_of_mem_warnings_ofTarget {origin : String} {line : Nat} {valueType : ValueType}
    {attributeRank : UInt8} {target : List Char} {w : Warning}
    (h : w ∈ (ofTarget origin line valueType attributeRank target).warnings) :
    w.kind = .malformedRecord := by
  unfold ofTarget at h
  dsimp only at h
  split at h
  · cases h
  · rw [List.mem_singleton.mp h]

theorem kind_of_mem_warnings_ofStatement {origin : String} {statement : CodeLine} {w : Warning}
    (h : w ∈ (ofStatement origin statement).warnings) : w.kind = .malformedRecord := by
  unfold ofStatement at h
  split at h
  · cases h
  · dsimp only at h
    split at h
    · cases h
    · rw [warnings_foldr_append, List.mem_flatMap] at h
      obtain ⟨part, hpart, hw⟩ := h
      obtain ⟨target, -, rfl⟩ := List.mem_map.mp hpart
      exact kind_of_mem_warnings_ofTarget hw

theorem kind_of_mem_warnings {origin : String} {text : List Char} {w : Warning}
    (h : w ∈ (parse origin text).warnings) : w.kind = .malformedRecord := by
  rw [parse, warnings_foldr_append, List.mem_flatMap] at h
  obtain ⟨part, hpart, hw⟩ := h
  obtain ⟨statement, -, rfl⟩ := List.mem_map.mp hpart
  exact kind_of_mem_warnings_ofStatement hw

end NamelistCatalog.DeclarationsDocument
