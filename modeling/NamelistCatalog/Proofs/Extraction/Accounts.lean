import NamelistCatalog.Proofs.Extraction.Join
import NamelistCatalog.Proofs.Extraction.Progress

namespace NamelistCatalog

theorem Warning.count_flatMap {α : Type} {kind : WarningKind} (xs : List α) (f : α → List Warning) :
    count kind (xs.flatMap f) = (xs.map fun x => count kind (f x)).sum := List.countP_flatMap

namespace DeclarationsDocument

theorem skipped_foldr_append {parts : List DeclarationsDocument}
    (h : ∀ part ∈ parts, part.skipped = part.warnings.length) :
    (parts.foldr append {}).skipped = (parts.foldr append {}).warnings.length := by
  induction parts with
  | nil => rfl
  | cons part rest ih =>
      rw [List.forall_mem_cons] at h
      rw [List.foldr_cons, append, List.length_append, h.1, ih h.2]

theorem skipped_ofTarget (origin : String) (line : Nat) (valueType : ValueType) (rank : UInt8)
    (target : List Char) :
    (ofTarget origin line valueType rank target).skipped =
      (ofTarget origin line valueType rank target).warnings.length := by
  unfold ofTarget
  dsimp only
  split <;> rfl

theorem skipped_ofStatement (origin : String) (statement : CodeLine) :
    (ofStatement origin statement).skipped = (ofStatement origin statement).warnings.length := by
  unfold ofStatement
  split
  · rfl
  · dsimp only
    split
    · rfl
    · apply skipped_foldr_append
      intro part hpart
      obtain ⟨target, -, rfl⟩ := List.mem_map.mp hpart
      exact skipped_ofTarget _ _ _ _ _

theorem skipped_parse (origin : String) (text : List Char) :
    (parse origin text).skipped = Warning.count .malformedRecord (parse origin text).warnings := by
  rw [Warning.count_eq_length fun w hw => kind_of_mem_warnings hw, parse]
  apply skipped_foldr_append
  intro part hpart
  obtain ⟨statement, -, rfl⟩ := List.mem_map.mp hpart
  exact skipped_ofStatement origin statement

theorem count_warnings_parse {kind : WarningKind} (h : kind ≠ .malformedRecord) (origin : String)
    (text : List Char) : Warning.count kind (parse origin text).warnings = 0 :=
  Warning.count_eq_zero fun _ hw hkind => h (hkind.symm.trans (kind_of_mem_warnings hw))

end DeclarationsDocument

/-- The totals account for these sets: what is skipped, what could not be read, and no decision between
entries of one name. -/
structure ExtractionSummary.Balances (t : ExtractionSummary) (sets : List LoadedSet) : Prop where
  skipped : t.skipped = Warning.count .malformedRecord t.warnings
  documents : t.documentsRead + Warning.count .unreadableDocument t.warnings =
    (sets.map fun s => s.documents.length).sum
  superseded : Warning.count .superseded t.warnings = 0

namespace LoadedSet

variable (s : LoadedSet)

theorem skipped_extract :
    s.extract.skipped =
      ((s.readable .declarations).map fun d => (DeclarationsDocument.parse d.1 d.2).skipped).sum +
        ((s.readable .defaults).map fun d => (DefaultsDocument.parse d.1 d.2).skipped).sum := by
  rw [List.sum_eq_foldl, List.sum_eq_foldl, List.foldl_map, List.foldl_map]
  unfold extract
  dsimp only
  rw [List.foldl_map, List.foldl_map]

theorem documentsRead_extract :
    s.extract.documentsRead = (s.readable .declarations).length + (s.readable .defaults).length := by
  unfold extract
  dsimp only
  rw [List.length_map, List.length_map]

theorem kind_of_ambiguity? {origin : String} {declaration : Option Declaration}
    {record : DefaultsRecord} {w : Warning} (h : ambiguity? origin declaration record = some w) :
    w.kind = .ambiguousValue := by
  unfold ambiguity? at h
  split at h
  · rw [← Option.some.inj h]
  · cases h

theorem count_faults (kind : WarningKind) (h : kind ≠ .unreadableDocument) (d : DocumentKind) :
    Warning.count kind (s.faults d) = 0 :=
  Warning.count_eq_zero fun _ hw hkind => h (hkind.symm.trans (s.kind_of_mem_faults hw))

theorem count_warnings_extract (kind : WarningKind) (hkind : kind ≠ .ambiguousValue) :
    Warning.count kind s.extract.warnings =
      Warning.count kind (s.faults .declarations) + Warning.count kind (s.faults .defaults) +
        ((s.readable .declarations).map fun d =>
          Warning.count kind (DeclarationsDocument.parse d.1 d.2).warnings).sum +
        ((s.readable .defaults).map fun d =>
          Warning.count kind (DefaultsDocument.parse d.1 d.2).warnings).sum := by
  have hjoin : ∀ d : String × List Char,
      Warning.count kind ((DefaultsDocument.parse d.1 d.2).records.filterMap fun record =>
        ambiguity? d.1 ((s.firstDeclaration (Name.fold record.name)).map Prod.fst) record) = 0 := by
    intro d
    apply Warning.count_eq_zero
    intro w hw
    obtain ⟨record, -, hrecord⟩ := List.mem_filterMap.mp hw
    rw [kind_of_ambiguity? hrecord]
    exact hkind.symm
  rw [warnings_extract, Warning.count_append, Warning.count_append, Warning.count_append,
    Warning.count_flatMap, Warning.count_flatMap]
  simp only [Warning.count_append, hjoin, Nat.add_zero]

theorem count_warnings_extract_of_not_mem (kind : WarningKind) (hjoin : kind ≠ .ambiguousValue)
    (hread : kind ∉ DefaultsReader.statementKinds) :
    Warning.count kind s.extract.warnings =
      Warning.count kind (s.faults .declarations) + Warning.count kind (s.faults .defaults) := by
  have hmalformed : kind ≠ .malformedRecord := by
    rintro rfl
    exact hread List.mem_cons_self
  have hzero : ∀ documents : List (String × List Char), (documents.map fun _ => 0).sum = 0 := by
    intro documents
    simp
  rw [s.count_warnings_extract kind hjoin]
  simp only [DeclarationsDocument.count_warnings_parse hmalformed,
    DefaultsDocument.count_warnings_parse hread, hzero, Nat.add_zero]

/-- A set has a warning for each record and each name that it skips. -/
theorem skipped_extract_eq_count :
    s.extract.skipped = Warning.count .malformedRecord s.extract.warnings := by
  rw [s.count_warnings_extract .malformedRecord nofun, s.count_faults .malformedRecord nofun,
    s.count_faults .malformedRecord nofun, Nat.zero_add, skipped_extract]
  simp only [DeclarationsDocument.skipped_parse, DefaultsDocument.skipped_parse]

theorem count_superseded_extract : Warning.count .superseded s.extract.warnings = 0 := by
  rw [s.count_warnings_extract_of_not_mem .superseded nofun (by decide),
    s.count_faults .superseded nofun, s.count_faults .superseded nofun]

theorem length_readable_add_faults (kind : DocumentKind) :
    (s.readable kind).length + (s.faults kind).length = (s.documentsOf kind).length := by
  unfold readable faults
  induction s.documentsOf kind with
  | nil => rfl
  | cons d rest ih =>
      rw [List.filterMap_cons, List.filterMap_cons, LoadedDocument.readable?, LoadedDocument.fault?]
      cases d.contents with
      | ok text | error fault =>
          simp only [List.length_cons]
          omega

theorem length_documentsOf_add :
    (s.documentsOf .declarations).length + (s.documentsOf .defaults).length = s.documents.length := by
  unfold documentsOf
  induction s.documents with
  | nil => rfl
  | cons d rest ih =>
      cases hkind : d.kind with
      | declarations | defaults =>
          simp only [List.filter_cons, hkind]
          simp
          omega

theorem documentsRead_extract_add_count :
    s.extract.documentsRead + Warning.count .unreadableDocument s.extract.warnings =
      s.documents.length := by
  have hfaults : ∀ d, Warning.count .unreadableDocument (s.faults d) = (s.faults d).length :=
    fun d => Warning.count_eq_length fun w hw => s.kind_of_mem_faults hw
  rw [s.count_warnings_extract_of_not_mem .unreadableDocument nofun (by decide), hfaults, hfaults,
    documentsRead_extract, Nat.add_add_add_comm, length_readable_add_faults,
    length_readable_add_faults, length_documentsOf_add]

end LoadedSet

namespace Extraction

theorem balances_totals (sets : List LoadedSet) (yielded : Nat) :
    (totals sets yielded).Balances sets where
  skipped := by
    rw [totals, Warning.count_flatMap]
    refine congrArg List.sum (List.map_congr_left ?_)
    intro s _
    rw [s.alone_eq]
    exact s.skipped_extract_eq_count
  documents := by
    rw [totals, Warning.count_flatMap]
    dsimp only
    induction sets with
    | nil => rfl
    | cons s rest ih =>
        rw [List.map_cons, List.map_cons, List.map_cons, List.sum_cons, List.sum_cons, List.sum_cons,
          ← ih, ← s.documentsRead_extract_add_count, s.alone_eq, Nat.add_add_add_comm]
  superseded := by
    apply Warning.count_eq_zero
    intro w hw hkind
    obtain ⟨s, -, hw⟩ := List.mem_flatMap.mp hw
    rw [s.alone_eq] at hw
    exact absurd (beq_iff_eq.mpr hkind) (List.countP_eq_zero.mp s.count_superseded_extract w hw)

theorem exists_balances_after (sets : List LoadedSet) (calls : Nat) :
    ∃ read, sets = read ++ ((ofSets sets).after calls).pending ∧
      ((ofSets sets).after calls).summary.Balances read := by
  obtain ⟨read, h⟩ := exists_progress_after sets calls
  refine ⟨read, h.sets_eq, ?_⟩
  rw [h.summary]
  exact balances_totals read _

theorem balances_drain (sets : List LoadedSet) : (ofSets sets).drain.2.Balances sets := by
  have hdrain := drain_eq_take (Nat.lt_succ_self (ofSets sets).drain.1.length)
  obtain ⟨read, h⟩ := exists_progress_after sets (ofSets sets).drain.1.length.succ
  have hlength : (ofSets sets).drain.1.length = (entriesOf sets).length := by
    rw [(drain_ofSets sets).1, entriesOf_eq]
  have hread : read = sets := by
    rcases h.shortestPrefix.enough with henough | ⟨-, hread⟩
    · have hle := length_entriesOf_le h.isPrefix
      omega
    · exact hread
  rw [hdrain, take_snd, h.summary, hread]
  exact balances_totals sets _

end Extraction

end NamelistCatalog
