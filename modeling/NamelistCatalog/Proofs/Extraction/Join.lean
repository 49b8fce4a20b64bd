import NamelistCatalog.Proofs.Except
import NamelistCatalog.Proofs.Extraction

namespace NamelistCatalog

/-- The text of a document, and no text when it could not be read. -/
def LoadedDocument.text (d : LoadedDocument) : List Char :=
  match d.contents with
  | .ok text => text
  | .error _ => []

theorem DeclarationsDocument.parse_nil (origin : String) : parse origin [] = {} := by
  rw [parse, Text.lines_nil, CodeLine.ofLines, CodeLine.ofLinesFrom]
  rfl

theorem DefaultsDocument.parse_nil (origin : String) : parse origin [] = {} := by
  rw [parse, Text.lines_nil, DefaultsItem.ofLinesFrom]
  rfl

namespace Declared

theorem map_fst_index (seen : List (String × Declared)) (declared : List Declared) :
    (index seen declared).map Prod.fst =
      List.eraseDupsBy.loop (· == ·) (declared.map fun d => Name.fold d.1.name)
        (seen.map Prod.fst) := by
  -- Both recursions keep what they have seen, the latest first.
  induction declared generalizing seen with
  | nil => simp [index, List.eraseDupsBy.loop]
  | cons d rest ih =>
      rw [index, List.map_cons, List.eraseDupsBy.loop, ← Association.isSome_lookup]
      cases (seen.lookup (Name.fold d.1.name)).isSome with
      | true => exact ih seen
      | false => exact ih ((Name.fold d.1.name, d) :: seen)

theorem lookup_index (seen : List (String × Declared)) (declared : List Declared) (key : String) :
    (index seen declared).lookup key =
      (seen.reverse.lookup key).or (declared.find? fun d => Name.fold d.1.name == key) := by
  induction declared generalizing seen with
  | nil => simp [index]
  | cons d rest ih =>
      rw [index, List.find?_cons]
      by_cases hkey : Name.fold d.1.name = key
      · subst hkey
        split
        · rename_i hseen
          have hlookup : (seen.reverse.lookup (Name.fold d.1.name)).isSome := by
            rw [Association.isSome_lookup] at hseen ⊢
            simpa using hseen
          rw [ih, Option.or_of_isSome hlookup, Option.or_of_isSome hlookup]
        · rw [ih, List.reverse_cons, List.lookup_append, Option.or_assoc]
          simp
      · have hfold : (Name.fold d.1.name == key) = false := beq_eq_false_iff_ne.mpr hkey
        have hother : (key == Name.fold d.1.name) = false := beq_eq_false_iff_ne.mpr (Ne.symm hkey)
        split
        · rw [ih, hfold]
        · rw [ih, List.reverse_cons, List.lookup_append, hfold]
          simp [List.lookup_cons, hother]

end Declared

namespace LoadedSet

/-- The declarations of the set, each with the label of its document. -/
def declarations (s : LoadedSet) : List Declared :=
  (s.documentsOf .declarations).flatMap fun d =>
    (DeclarationsDocument.parse d.label d.text).declarations.map (·, d.label)

/-- The records of the set, each with the label of its document. -/
def records (s : LoadedSet) : List (String × DefaultsRecord) :=
  (s.documentsOf .defaults).flatMap fun d =>
    (DefaultsDocument.parse d.label d.text).records.map (d.label, ·)

def declaredKeys (s : LoadedSet) : List String := s.declarations.map fun d => Name.fold d.1.name

def assignedKeys (s : LoadedSet) : List String := s.records.map fun r => Name.fold r.2.name

def firstDeclaration (s : LoadedSet) (key : String) : Option Declared :=
  s.declarations.find? fun d => Name.fold d.1.name == key

/-- The folded names that the set declares and does not assign, each where it is first declared. -/
def unassigned (s : LoadedSet) : List String :=
  s.declaredKeys.eraseDups.filter (· ∉ s.assignedKeys)

/-- The records of names that the set does not declare, with literals that show no type. -/
def untyped (s : LoadedSet) : List (String × DefaultsRecord) :=
  s.records.filter fun r =>
    (s.firstDeclaration (Name.fold r.2.name)).isNone && r.2.inferred.ambiguous

/-- The warning about a record whose type is not known. -/
def typeWarning (r : String × DefaultsRecord) : Warning :=
  { kind := .ambiguousValue, origin := r.1, line := some r.2.line, name := some r.2.name
    detail := "type not inferable from literal; treating as character" }

/-- The entry of a record. Its type is the one declared first, and its rank the larger of both. -/
structure Assigns (s : LoadedSet) (r : String × DefaultsRecord) (e : Entry) : Prop where
  name : e.name = r.2.name
  defaultValue : e.defaultValue = r.2.defaultValue
  doc : e.doc = r.2.doc
  summary : e.summary = Summary.ofDoc r.2.doc
  version : e.version = s.version
  namelist : e.namelist = s.namelist
  order : e.order = some r.2.order
  origin : e.origin = r.1
  declared : ∀ d, s.firstDeclaration (Name.fold r.2.name) = some d →
    e.valueType = d.1.valueType ∧ e.dim = max d.1.dim r.2.dim
  undeclared : s.firstDeclaration (Name.fold r.2.name) = none →
    e.valueType = r.2.inferred.valueType ∧ e.dim = r.2.dim

/-- The entry of a name that is declared only: its first declaration, and no default. -/
structure LeavesUnset (s : LoadedSet) (key : String) (e : Entry) : Prop where
  declared : ∃ d, s.firstDeclaration key = some d ∧ e.name = d.1.name ∧
    e.valueType = d.1.valueType ∧ e.dim = d.1.dim ∧ e.origin = d.2
  defaultValue : e.defaultValue = .unset
  doc : e.doc = ""
  summary : e.summary = ""
  version : e.version = s.version
  namelist : e.namelist = s.namelist
  order : e.order = none

/-- The entries and warnings that the declarations and records of a set call for. -/
structure Joins (s : LoadedSet) (y : SetYield) : Prop where
  entries : ∃ assigned unset, y.entries = assigned ++ unset ∧
    List.Forall₂ s.Assigns s.records assigned ∧ List.Forall₂ s.LeavesUnset s.unassigned unset
  warnings : y.warnings.filter (fun w => w.kind == .ambiguousValue) = s.untyped.map typeWarning
  keys : ∀ key, key ∈ y.entries.map Entry.key ↔ key ∈ s.assignedKeys ∨ key ∈ s.declaredKeys
  nodup : (s.documentsOf .defaults).length ≤ 1 → (y.entries.map Entry.key).Nodup

variable (s : LoadedSet)

theorem flatMap_readable {α : Type} (kind : DocumentKind) (f : String → List Char → List α)
    (hf : ∀ label, f label [] = []) :
    (s.readable kind).flatMap (fun d => f d.1 d.2) =
      (s.documentsOf kind).flatMap fun d => f d.label d.text := by
  unfold readable
  induction s.documentsOf kind with
  | nil => rfl
  | cons d rest ih =>
      rw [List.filterMap_cons, List.flatMap_cons, ← ih, LoadedDocument.readable?,
        LoadedDocument.text]
      cases d.contents with
      | ok text => rw [List.flatMap_cons]
      | error fault => rw [hf, List.nil_append]

theorem declared_eq : s.declared = s.declarations := by
  have hread := s.flatMap_readable .declarations
    (fun label text => (DeclarationsDocument.parse label text).declarations.map (·, label))
    fun label => by rw [DeclarationsDocument.parse_nil]; rfl
  rw [declared, List.flatMap_map]
  exact hread

theorem keyedRecords_eq :
    s.keyedRecords = s.records.map fun r => (r.1, Name.fold r.2.name, r.2) := by
  have hread := s.flatMap_readable .defaults
    (fun label text => (DefaultsDocument.parse label text).records.map fun record =>
      (label, Name.fold record.name, record))
    fun label => by rw [DefaultsDocument.parse_nil]; rfl
  rw [keyedRecords, List.flatMap_map, records, List.map_flatMap]
  simp only [List.map_map, Function.comp_def]
  exact hread

theorem lookup_index_declared (key : String) :
    (Declared.index [] s.declared).lookup key = s.firstDeclaration key := by
  rw [declared_eq, Declared.lookup_index, List.reverse_nil, List.lookup_nil, Option.none_or]
  rfl

theorem map_keyedRecords : (s.keyedRecords.map fun r => r.2.1) = s.assignedKeys := by
  rw [keyedRecords_eq, List.map_map]
  rfl

theorem map_fst_leftover : s.leftover.map Prod.fst = s.unassigned := by
  have hindex : (Declared.index [] s.declared).map Prod.fst = s.declaredKeys.eraseDups := by
    rw [declared_eq, Declared.map_fst_index]
    rfl
  rw [leftover, unassigned, ← hindex, map_keyedRecords, List.filter_map]
  congr 1
  refine List.filter_congr ?_
  intro p _
  simp

theorem assigns_entryOfRecord (r : String × DefaultsRecord) :
    s.Assigns r
      (s.entryOfRecord r.1 ((s.firstDeclaration (Name.fold r.2.name)).map Prod.fst) r.2) where
  name := rfl
  defaultValue := rfl
  doc := rfl
  summary := rfl
  version := rfl
  namelist := rfl
  order := rfl
  origin := rfl
  declared := by
    intro d hd
    rw [hd]
    exact ⟨rfl, rfl⟩
  undeclared := by
    intro hd
    rw [hd]
    exact ⟨rfl, rfl⟩

theorem leavesUnset_entryOfDeclared {key : String} {d : Declared}
    (h : s.firstDeclaration key = some d) : s.LeavesUnset key (s.entryOfDeclared d) where
  declared := ⟨d, h, rfl, rfl, rfl, rfl⟩
  defaultValue := rfl
  doc := rfl
  summary := rfl
  version := rfl
  namelist := rfl
  order := rfl

theorem entries_extract_joins :
    ∃ assigned unset, s.extract.entries = assigned ++ unset ∧
      List.Forall₂ s.Assigns s.records assigned ∧
      List.Forall₂ s.LeavesUnset s.unassigned unset := by
  refine ⟨_, _, s.entries_extract, ?_, ?_⟩
  · rw [keyedRecords_eq, List.map_map, List.forall₂_map_right_iff, List.forall₂_same]
    intro r _
    rw [Function.comp_apply, lookup_index_declared]
    exact s.assigns_entryOfRecord r
  · rw [← map_fst_leftover, List.forall₂_map_left_iff, List.forall₂_map_right_iff,
      List.forall₂_same]
    intro p hp
    apply s.leavesUnset_entryOfDeclared
    rw [← lookup_index_declared, Association.lookup_eq_some_iff_mem s.indexes_declared.nodup]
    exact List.mem_of_mem_filter hp

theorem mem_keys_extract_iff (key : String) :
    key ∈ s.extract.entries.map Entry.key ↔ key ∈ s.assignedKeys ∨ key ∈ s.declaredKeys := by
  rw [map_key_entries_extract, map_keyedRecords, map_fst_leftover, List.mem_append, unassigned,
    List.mem_filter, List.mem_eraseDups, decide_eq_true_iff]
  constructor
  · rintro (h | ⟨h, -⟩)
    · exact .inl h
    · exact .inr h
  · rintro (h | h)
    · exact .inl h
    · by_cases hassigned : key ∈ s.assignedKeys
      · exact .inl hassigned
      · exact .inr ⟨h, hassigned⟩

theorem filterMap_ambiguity (origin : String) (records : List DefaultsRecord) :
    (records.filterMap fun record =>
        ambiguity? origin ((s.firstDeclaration (Name.fold record.name)).map Prod.fst) record) =
      ((records.map (origin, ·)).filter fun r =>
        (s.firstDeclaration (Name.fold r.2.name)).isNone && r.2.inferred.ambiguous).map
          typeWarning := by
  induction records with
  | nil => rfl
  | cons record rest ih =>
      rw [List.filterMap_cons, ih, List.map_cons, List.filter_cons, ambiguity?, Option.isNone_map]
      cases (s.firstDeclaration (Name.fold record.name)).isNone && record.inferred.ambiguous with
      | true => rfl
      | false => rfl

theorem warnings_extract :
    s.extract.warnings =
      s.faults .declarations ++ s.faults .defaults ++
        ((s.readable .declarations).flatMap fun d => (DeclarationsDocument.parse d.1 d.2).warnings) ++
        (s.readable .defaults).flatMap fun d =>
          (DefaultsDocument.parse d.1 d.2).warnings ++
            ((DefaultsDocument.parse d.1 d.2).records.filterMap fun record =>
              ambiguity? d.1 ((s.firstDeclaration (Name.fold record.name)).map Prod.fst) record) := by
  simp only [← lookup_index_declared]
  unfold extract
  dsimp only
  rw [List.flatMap_map, List.flatMap_map]
  rfl

theorem kind_of_mem_faults {kind : DocumentKind} {w : Warning} (h : w ∈ s.faults kind) :
    w.kind = .unreadableDocument := by
  obtain ⟨d, -, hw⟩ := List.mem_filterMap.mp h
  unfold LoadedDocument.fault? at hw
  split at hw
  · cases hw
  · rw [← Option.some.inj hw]

theorem filter_warnings_extract :
    s.extract.warnings.filter (fun w => w.kind == .ambiguousValue) =
      s.untyped.map typeWarning := by
  -- Every other part of the warnings has kinds of its own.
  have hfaults : ∀ kind, (s.faults kind).filter (fun w => w.kind == .ambiguousValue) = [] := by
    intro kind
    rw [List.filter_eq_nil_iff]
    intro w hw
    simp [s.kind_of_mem_faults hw]
  have hdeclarations : ((s.readable .declarations).flatMap fun d =>
      (DeclarationsDocument.parse d.1 d.2).warnings).filter
        (fun w => w.kind == .ambiguousValue) = [] := by
    rw [List.filter_eq_nil_iff]
    intro w hw
    obtain ⟨d, -, hw⟩ := List.mem_flatMap.mp hw
    simp [DeclarationsDocument.kind_of_mem_warnings hw]
  have hdefaults : ∀ origin text,
      (DefaultsDocument.parse origin text).warnings.filter
        (fun w => w.kind == .ambiguousValue) = [] := by
    intro origin text
    rw [List.filter_eq_nil_iff]
    intro w hw hkind
    have hmem := DefaultsDocument.kind_of_mem_warnings hw
    rw [beq_iff_eq.mp hkind] at hmem
    exact absurd hmem (by decide)
  have htypes : ∀ rs : List (String × DefaultsRecord),
      (rs.map typeWarning).filter (fun w => w.kind == .ambiguousValue) = rs.map typeWarning := by
    intro rs
    rw [List.filter_eq_self]
    intro w hw
    obtain ⟨r, -, rfl⟩ := List.mem_map.mp hw
    rfl
  have hrecords := s.flatMap_readable .defaults
    (fun label text => (((DefaultsDocument.parse label text).records.map (label, ·)).filter fun r =>
      (s.firstDeclaration (Name.fold r.2.name)).isNone && r.2.inferred.ambiguous).map typeWarning)
    fun label => by rw [DefaultsDocument.parse_nil]; rfl
  rw [warnings_extract, untyped, records, List.filter_flatMap, List.map_flatMap, ← hrecords]
  rw [List.filter_append, List.filter_append, List.filter_append, hfaults, hfaults, hdeclarations,
    List.filter_flatMap]
  simp only [List.filter_append, hdefaults, filterMap_ambiguity, htypes, List.nil_append]

/-- A set gives the entries and the warnings that its declarations and records call for; a document
that could not be read counts as an empty one. -/
theorem joins_extract : s.Joins s.extract where
  entries := s.entries_extract_joins
  warnings := s.filter_warnings_extract
  keys := s.mem_keys_extract_iff
  nodup := nodup_keys_extract

end LoadedSet

end NamelistCatalog
