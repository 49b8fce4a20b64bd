import Mathlib.Data.List.Induction
import NamelistCatalog.Proofs.Defaults
import NamelistCatalog.Proofs.Defaults.Assignment
import NamelistCatalog.Proofs.Scans

namespace NamelistCatalog

namespace Assignment

theorem ofStatement?_of_isDelimiter {statement : List Char}
    (h : DefaultsReader.isDelimiter statement = true) : ofStatement? statement = none := by
  have hname : Name.isIdentifier (statement.takeWhile Name.isNameChar) = false := by
    rw [DefaultsReader.isDelimiter, Bool.or_eq_true, Bool.or_eq_true, List.isEmpty_iff, beq_iff_eq,
      beq_iff_eq, List.head?_eq_some_iff] at h
    rcases h with (rfl | ⟨rest, rfl⟩) | rfl
    · rfl
    · rw [List.takeWhile_cons_of_neg (by decide)]
      rfl
    · rfl
  rw [ofStatement?, hname]
  rfl

end Assignment

namespace CodeLine

variable {number : Nat} {line : Line} {rest : List Line}

theorem ofLinesFrom_codeless (h : line.isCodeless = true) :
    ofLinesFrom number (line :: rest) = ofLinesFrom (number + 1) rest := by
  rw [ofLinesFrom, if_pos h]

theorem ofLinesFrom_code (h : line.isCodeless = false) :
    ofLinesFrom number (line :: rest) =
      [⟨number, (Statement.join line rest).1⟩].filter (fun s => !s.text.isEmpty) ++
        ofLinesFrom (number + 1 + (Statement.join line rest).2)
          (rest.drop (Statement.join line rest).2) := by
  rw [ofLinesFrom, if_neg (Bool.eq_false_iff.mp h)]
  dsimp only
  split
  · rename_i hempty
    rw [List.filter_cons_of_neg (by simp [hempty])]
    rfl
  · rename_i hsome
    rw [List.filter_cons_of_pos (by simpa using hsome)]
    rfl

end CodeLine

namespace DefaultsItem

theorem isCodeless_of_commentBody? {line : Line} {body : List Char} (h : line.commentBody? = some body) :
    line.isCodeless = true := by
  rw [Line.commentBody?] at h
  split at h
  · rename_i heq
    rw [Line.isCodeless, Line.isComment, heq]
    exact Bool.or_true _
  · cases h

theorem isCodeless_eq_false {line : Line} (hblank : ¬Text.isBlankText line = true)
    (h : line.commentBody? = none) : line.isCodeless = false := by
  rw [Line.commentBody?] at h
  split at h
  · cases h
  · rename_i hmark
    rw [Line.isCodeless, Bool.eq_false_iff.mpr hblank, Bool.false_or, Line.isComment, beq_eq_false_iff_ne]
    intro hfirst
    obtain ⟨rest, heq⟩ := List.head?_eq_some_iff.mp hfirst
    exact hmark rest heq

theorem exists_underline {body : List Char} {rest : List Line} {title : DocHeader}
    (h : DocHeader.ofComment? body rest.head? = some title) (hunderlined : title.underlined = true) :
    ∃ next more, rest = next :: more ∧ next.isCodeless = true := by
  rw [DocHeader.ofComment?] at h
  split at h
  · obtain ⟨name, -, rfl⟩ := Option.map_eq_some_iff.mp h
    cases hunderlined
  · split at h
    · rename_i hnext
      cases rest with
      | nil => cases hnext
      | cons next more =>
          rw [List.head?_cons, Option.any_some, DocHeader.isUnderline] at hnext
          cases hbody : next.commentBody? with
          | none =>
              rw [hbody] at hnext
              cases hnext
          | some mark => exact ⟨next, more, rfl, isCodeless_of_commentBody? hbody⟩
    · cases h

/-- The statements that a document is read for are those of its lines of code, up to empty ones: what is
taken for blank lines, comments and headers holds no code. -/
theorem filter_statements (number : Nat) (lines : List Line) :
    ((ofLinesFrom number lines).filterMap codeLine?).filter (fun s => !s.text.isEmpty) =
      CodeLine.ofLinesFrom number lines := by
  fun_induction ofLinesFrom number lines with
  | case1 number => rw [CodeLine.ofLinesFrom, List.filterMap_nil, List.filter_nil]
  | case2 number line rest hblank ih =>
      have hcodeless : line.isCodeless = true := by rw [Line.isCodeless, hblank, Bool.true_or]
      rw [CodeLine.ofLinesFrom_codeless hcodeless, ← ih]
      rfl
  | case3 number line rest hblank body hbody title htitle more ih =>
      rw [CodeLine.ofLinesFrom_codeless (isCodeless_of_commentBody? hbody)]
      cases hunderlined : title.underlined with
      | false =>
          have hmore : more = 0 := if_neg (by simp [hunderlined])
          rw [hmore] at ih ⊢
          exact ih
      | true =>
          obtain ⟨next, after, rfl, hnext⟩ := exists_underline htitle hunderlined
          have hmore : more = 1 := if_pos hunderlined
          rw [hmore] at ih ⊢
          rw [CodeLine.ofLinesFrom_codeless hnext]
          exact ih
  | case4 number line rest hblank body hbody htitle hhash ih =>
      rw [CodeLine.ofLinesFrom_codeless (isCodeless_of_commentBody? hbody), ← ih]
  | case5 number line rest hblank body hbody htitle hhash ih =>
      rw [CodeLine.ofLinesFrom_codeless (isCodeless_of_commentBody? hbody), ← ih]
      rfl
  | case6 number line rest hblank hbody joined ih =>
      rw [CodeLine.ofLinesFrom_code (isCodeless_eq_false hblank hbody), ← ih, ← List.filter_append]
      rfl

end DefaultsItem

namespace DefaultsReader

open Assignment (Located)

theorem map_mapIdx {α β γ : Type} (f : Nat → α → β) (g : β → γ) (l : List α) :
    (l.mapIdx f).map g = l.mapIdx fun i a => g (f i a) := List.ext_getElem (by simp) (by simp)

theorem rankOf_pos (indexList : List Char) : 0 < rankOf indexList := by
  rw [UInt8.lt_iff_toNat_lt, rankOf, splitTopLevel, List.length_cons, UInt8.toNat_ofNat']
  have hzero : (0 : UInt8).toNat = 0 := rfl
  omega

theorem zero_max (n : UInt8) : max 0 n = n := by
  rw [← UInt8.toNat_inj, UInt8.toNat_max]
  exact Nat.zero_max _

theorem max_eq_or (m n : UInt8) : max m n = m ∨ max m n = n := by
  rw [← UInt8.toNat_inj, ← UInt8.toNat_inj, UInt8.toNat_max]
  omega

theorem le_max (m n : UInt8) : m ≤ max m n ∧ n ≤ max m n := by
  rw [UInt8.le_iff_toNat_le, UInt8.le_iff_toNat_le, UInt8.toNat_max]
  omega

theorem foldl_max_concat (ns : List UInt8) (n : UInt8) :
    (ns ++ [n]).foldl max 0 = max (ns.foldl max 0) n := by
  rw [List.foldl_append]
  rfl

theorem foldl_max_mem {ns : List UInt8} (hne : ns ≠ []) :
    ns.foldl max 0 ∈ ns ∧ ∀ n ∈ ns, n ≤ ns.foldl max 0 := by
  induction ns using List.reverseRecOn with
  | nil => exact absurd rfl hne
  | append_singleton front last ih =>
      obtain ⟨hfirst, hlast⟩ := le_max (front.foldl max 0) last
      rw [foldl_max_concat, List.forall_mem_append, List.forall_mem_singleton]
      by_cases hfront : front = []
      · subst hfront
        rw [List.foldl_nil, zero_max] at hlast ⊢
        exact ⟨List.mem_singleton_self last, by simp, hlast⟩
      · obtain ⟨hmem, hle⟩ := ih hfront
        refine ⟨?_, fun n hn => UInt8.le_trans (hle n hn) hfirst, hlast⟩
        rcases max_eq_or (front.foldl max 0) last with hmax | hmax
        · rw [hmax]
          exact List.mem_append_left _ hmem
        · rw [hmax]
          exact List.mem_append_right _ (List.mem_singleton_self last)

/-- The rank of the parameter that an assignment introduces: none if the assignment has no index list, and
else the largest that the index lists of the name show. -/
def dimOf (as : List Located) (a : Located) : UInt8 :=
  if a.index.isSome then (Located.ranks a.key as).foldl max 0 else 0

/-- The record of the assignment that introduces a parameter. -/
def recordOf (as : List Located) (place : Nat) (a : Located) : DefaultsRecord :=
  { name := String.ofList a.name
    defaultValue := a.defaultValue
    inferred := a.inferred
    dim := dimOf as a
    order := UInt32.ofNat (min place 4294967295)
    line := a.line }

/-- The record after one more assignment to its name. -/
def widened (record : DefaultsRecord) (a : Assignment) : DefaultsRecord :=
  match a.rank? with
  | some rank => if 0 < record.dim then { record with dim := max record.dim rank } else record
  | none => record

variable {as : List Located} {a b : Located}

theorem dimOf_pos_iff (hb : b ∈ as) : 0 < dimOf as b ↔ b.index.isSome = true := by
  rw [dimOf]
  split
  · rename_i hindex
    obtain ⟨index, hmem⟩ := Located.exists_rankOf_mem_ranks hb hindex
    have hle := (foldl_max_mem (List.ne_nil_of_mem hmem)).2 _ hmem
    have hpos := rankOf_pos index
    simp only [hindex, iff_true]
    rw [UInt8.lt_iff_toNat_lt] at hpos ⊢
    rw [UInt8.le_iff_toNat_le] at hle
    omega
  · rename_i hindex
    simp [hindex]

theorem dimOf_concat_self (h : Located.first? a.key as = none) :
    dimOf (as ++ [a]) a = a.rank?.getD 0 := by
  have hranks : Located.ranks a.key as = [] := by
    rw [Located.first?, List.find?_eq_none] at h
    rw [Located.ranks, List.filter_eq_nil_iff.mpr h]
    rfl
  rw [dimOf, Located.ranks_concat, hranks, if_pos rfl, Assignment.rank?]
  cases a.index with
  | none => rfl
  | some index => exact zero_max (rankOf index)

theorem recordOf_concat (hb : b ∈ as) (place : Nat) (a : Located) :
    recordOf (as ++ [a]) place b =
      if a.key = b.key then widened (recordOf as place b) a.toAssignment else recordOf as place b := by
  have hsame : (a.key = b.key → a.rank? = none) → recordOf (as ++ [a]) place b = recordOf as place b := by
    intro hrank
    rw [recordOf, dimOf, Located.ranks_concat_of_rank_eq_none b.key hrank]
    rfl
  split
  · rename_i hkey
    rw [widened]
    split
    · rename_i rank hrank
      have hpos : 0 < (recordOf as place b).dim ↔ b.index.isSome = true := dimOf_pos_iff hb
      split
      · rename_i hdim
        have hindex := hpos.mp hdim
        rw [recordOf, dimOf, if_pos hindex, Located.ranks_concat, if_pos hkey, hrank, Option.toList_some,
          foldl_max_concat, recordOf, dimOf, if_pos hindex]
      · rename_i hdim
        have hindex := fun h => hdim (hpos.mpr h)
        rw [recordOf, dimOf, if_neg hindex, recordOf, dimOf, if_neg hindex]
    · rename_i hrank
      exact hsame fun _ => hrank
  · rename_i hkey
    exact hsame fun h => absurd h hkey

/-- The reader has read these assignments: it has a record for each that is the first of its name, and it
has warned about each that is neither the first of its name nor to a further element of an array. -/
structure Reads (as : List Located) (r : DefaultsReader) : Prop where
  records : r.records.reverse = (Located.firsts as).mapIdx fun i a => (a.key, recordOf as i a)
  repetitions : (Located.firsts as).length + Located.elements as +
    Warning.count .duplicateInDocument r.warnings = as.length

variable {r : DefaultsReader} {origin : String} {number : Nat} {key : String} {first : DefaultsRecord}

theorem Reads.map_fst (h : Reads as r) :
    r.records.map Prod.fst = ((Located.firsts as).map fun a => a.key).reverse := by
  have hkeys : r.records.reverse.map Prod.fst = (Located.firsts as).map fun a => a.key := by
    rw [h.records]
    exact List.ext_getElem (by simp) (by simp)
  rw [← hkeys, List.map_reverse, List.reverse_reverse]

theorem Reads.length_records (h : Reads as r) : r.records.length = (Located.firsts as).length := by
  rw [← List.length_reverse, h.records, List.length_mapIdx]

theorem Reads.lookup_eq_none_iff (h : Reads as r) :
    r.records.lookup key = none ↔ Located.first? key as = none := by
  rw [Association.lookup_eq_none_iff_not_mem, h.map_fst, List.mem_reverse, Located.mem_key_firsts_iff,
    Bool.not_eq_true, Option.isSome_eq_false_iff, Option.isNone_iff_eq_none]

theorem Reads.exists_of_lookup (h : Reads as r) (hlookup : r.records.lookup key = some first) :
    ∃ b place, Located.first? key as = some b ∧ first = recordOf as place b := by
  have hmem := List.mem_reverse.mpr (Association.mem_of_lookup hlookup)
  rw [h.records, List.mem_mapIdx] at hmem
  obtain ⟨place, hplace, heq⟩ := hmem
  obtain ⟨rfl, rfl⟩ := Prod.mk.inj heq
  exact ⟨_, place, Located.mem_firsts_iff.mp (List.getElem_mem hplace), rfl⟩

theorem widened_eq_self {a : Assignment} (h : ∀ rank ∈ a.rank?, ¬0 < first.dim) :
    widened first a = first := by
  unfold widened
  split
  · rename_i rank hrank
    exact if_neg (h rank hrank)
  · rfl

theorem records_repeated (hkeys : (r.records.map Prod.fst).Nodup)
    (hlookup : r.records.lookup key = some first) (a : Assignment) :
    (r.repeated origin number key first a).records =
      r.records.map fun p => if p.1 = key then (p.1, widened p.2 a) else p := by
  have hfirst : ∀ p ∈ r.records, p.1 = key → p.2 = first := by
    rintro ⟨_, record⟩ hp rfl
    rw [← Association.lookup_eq_some_iff_mem hkeys, hlookup] at hp
    exact (Option.some.inj hp).symm
  have hsame : (∀ rank ∈ a.rank?, ¬0 < first.dim) →
      r.records = r.records.map fun p => if p.1 = key then (p.1, widened p.2 a) else p := by
    intro hdim
    conv_lhs => rw [← List.map_id r.records]
    refine List.map_congr_left ?_
    rintro ⟨k, record⟩ hp
    by_cases hkey : k = key
    · rw [id, if_pos hkey, widened_eq_self]
      rw [hfirst _ hp hkey]
      exact hdim
    · rw [id, if_neg hkey]
  unfold repeated
  split
  · rename_i index hindex
    dsimp only
    split
    · rename_i hdim
      refine List.map_congr_left ?_
      intro p hp
      by_cases hkey : p.1 = key
      · simp [hkey, hfirst p hp hkey, widened, Assignment.rank?, hindex, hdim]
      · simp [hkey]
    · rename_i hdim
      exact hsame fun _ _ => hdim
  · rename_i hindex
    exact hsame (by simp [Assignment.rank?, hindex])

theorem count_repeated (a : Assignment) :
    Warning.count .duplicateInDocument (r.repeated origin number key first a).warnings =
      Warning.count .duplicateInDocument r.warnings +
        if a.index.isSome = true ∧ 0 < first.dim then 0 else 1 := by
  have hwarn : Warning.count .duplicateInDocument
      (r.warn (repeated.warning origin number first a.name)).warnings =
        Warning.count .duplicateInDocument r.warnings + 1 :=
    List.countP_cons_of_pos rfl
  unfold repeated
  split
  · rename_i index hindex
    dsimp only
    split
    · rename_i hdim
      simp [hindex, hdim]
    · rename_i hdim
      simp [hdim, hwarn]
  · rename_i hindex
    simp [hindex, hwarn]

theorem records_fresh (a : Assignment) (line : Nat) :
    (r.fresh origin line key a).records =
      (key, { name := String.ofList a.name
              defaultValue := a.defaultValue
              inferred := a.inferred
              dim := a.rank?.getD 0
              order := UInt32.ofNat (min r.records.length 4294967295)
              line }) :: r.records := by
  unfold fresh
  dsimp only
  split
  · rename_i hempty
    simp [warn, Assignment.defaultValue, Assignment.inferred, Assignment.rank?, hempty]
  · rename_i hsome
    simp [Assignment.defaultValue, Assignment.inferred, Assignment.rank?, hsome]

theorem count_fresh (a : Assignment) :
    Warning.count .duplicateInDocument (r.fresh origin number key a).warnings =
      Warning.count .duplicateInDocument r.warnings := by
  unfold fresh
  dsimp only
  split
  · exact List.countP_cons_of_neg (by simp)
  · rfl

theorem Reads.repeated (h : Reads as r) (hnodup : as.Nodup) (ha : a ∉ as)
    (hlookup : r.records.lookup a.key = some first) :
    Reads (as ++ [a]) (r.repeated origin number a.key first a.toAssignment) := by
  obtain ⟨b, place, hb, rfl⟩ := h.exists_of_lookup hlookup
  have hfirsts : Located.firsts (as ++ [a]) = Located.firsts as := by
    rw [Located.firsts_concat ha, hb]
    exact List.append_nil _
  have hkeys : (r.records.map Prod.fst).Nodup := by
    rw [h.map_fst, List.nodup_reverse]
    exact Located.nodup_key_firsts hnodup
  refine ⟨?_, ?_⟩
  · rw [records_repeated hkeys hlookup, ← List.map_reverse, h.records, hfirsts]
    rw [map_mapIdx, List.mapIdx_eq_mapIdx_iff]
    intro place hplace
    have hmem := Located.mem_of_mem_firsts (List.getElem_mem hplace)
    dsimp only
    rw [recordOf_concat hmem]
    by_cases hkey : (Located.firsts as)[place].key = a.key
    · rw [if_pos hkey, if_pos hkey.symm]
    · rw [if_neg hkey, if_neg (Ne.symm hkey)]
  · rw [hfirsts, Located.elements_concat ha, hb, count_repeated, List.length_append, ← h.repetitions]
    have hdim : 0 < (recordOf as place b).dim ↔ b.index.isSome = true :=
      dimOf_pos_iff (Located.mem_of_first? hb)
    simp only [hdim]
    by_cases helement : a.index.isSome = true ∧ b.index.isSome = true
    · simp [helement]
      omega
    · simp [helement]
      omega

theorem Reads.fresh (h : Reads as r) (ha : a ∉ as) (hlookup : r.records.lookup a.key = none) :
    Reads (as ++ [a]) (r.fresh origin a.line a.key a.toAssignment) := by
  have hfirst := h.lookup_eq_none_iff.mp hlookup
  have hfirsts : Located.firsts (as ++ [a]) = Located.firsts as ++ [a] := by
    rw [Located.firsts_concat ha, hfirst]
    rfl
  refine ⟨?_, ?_⟩
  · rw [records_fresh, List.reverse_cons, h.records, hfirsts, List.mapIdx_concat, h.length_records]
    congr 1
    · rw [List.mapIdx_eq_mapIdx_iff]
      intro place hplace
      have hmem := Located.mem_of_mem_firsts (List.getElem_mem hplace)
      have hkey : a.key ≠ (Located.firsts as)[place].key := by
        intro hkey
        rw [hkey, Located.mem_firsts_iff.mp (List.getElem_mem hplace)] at hfirst
        cases hfirst
      rw [recordOf_concat hmem, if_neg hkey]
    · rw [recordOf, dimOf_concat_self hfirst]
  · rw [hfirsts, Located.elements_concat ha, hfirst, count_fresh, List.length_append, List.length_append,
      ← h.repetitions]
    simp
    omega

/-- Reading a statement reads the assignment that it is. -/
theorem Reads.step (h : Reads as r) (hnodup : as.Nodup) {s : CodeLine}
    (hline : ∀ a ∈ as, a.line ≠ s.number) :
    Reads (as ++ (Located.ofCodeLine? s).toList) (r.step origin s) := by
  cases hassignment : Assignment.ofStatement? s.text with
  | none =>
      rw [Located.ofCodeLine?, hassignment, Option.map_none, Option.toList_none, List.append_nil,
        DefaultsReader.step]
      split
      · exact h
      · rw [hassignment]
        exact ⟨h.records, by
          rw [← h.repetitions]
          rfl⟩
  | some assignment =>
      have hdelimiter : ¬isDelimiter s.text = true := by
        intro hdelimiter
        rw [Assignment.ofStatement?_of_isDelimiter hdelimiter] at hassignment
        cases hassignment
      rw [Located.ofCodeLine?, hassignment, Option.map_some, Option.toList_some, DefaultsReader.step,
        if_neg hdelimiter, hassignment]
      have ha : (⟨assignment, s.number⟩ : Located) ∉ as := fun hmem => hline _ hmem rfl
      dsimp only
      split
      · rename_i first hlookup
        exact h.repeated hnodup ha hlookup
      · rename_i hlookup
        exact h.fresh ha hlookup

theorem line_of_mem_filterMap {statements : List CodeLine}
    (h : a ∈ statements.filterMap Located.ofCodeLine?) : ∃ s ∈ statements, a.line = s.number := by
  obtain ⟨s, hs, heq⟩ := List.mem_filterMap.mp h
  obtain ⟨assignment, -, rfl⟩ := Option.map_eq_some_iff.mp heq
  exact ⟨s, hs, rfl⟩

theorem pairwise_line {statements : List CodeLine}
    (h : statements.Pairwise fun s t => s.number < t.number) :
    (statements.filterMap Located.ofCodeLine?).Pairwise fun a b => a.line < b.line := by
  refine List.Pairwise.filterMap _ ?_ h
  intro s t hlt a ha b hb
  obtain ⟨_, -, rfl⟩ := Option.map_eq_some_iff.mp ha
  obtain ⟨_, -, rfl⟩ := Option.map_eq_some_iff.mp hb
  exact hlt

theorem reads_foldl_step (origin : String) {statements : List CodeLine}
    (h : statements.Pairwise fun s t => s.number < t.number) :
    Reads (statements.filterMap Located.ofCodeLine?) (statements.foldl (step origin) {}) := by
  induction statements using List.reverseRecOn with
  | nil => exact ⟨rfl, rfl⟩
  | append_singleton front last ih =>
      obtain ⟨hfront, -, hlast⟩ := List.pairwise_append.mp h
      have hnodup : (front.filterMap Located.ofCodeLine?).Nodup :=
        (pairwise_line hfront).imp fun hlt heq => by
          rw [heq] at hlt
          exact Nat.lt_irrefl _ hlt
      have hline : ∀ a ∈ front.filterMap Located.ofCodeLine?, a.line ≠ last.number := by
        intro a ha
        obtain ⟨s, hs, hnumber⟩ := line_of_mem_filterMap ha
        have hlt := hlast s hs last (List.mem_singleton_self last)
        omega
      have hstep : Reads _ (DefaultsReader.step origin _ last) := (ih hfront).step hnodup hline
      rw [List.foldl_append, List.filterMap_append]
      have hsingle : [last].filterMap Located.ofCodeLine? = (Located.ofCodeLine? last).toList := by
        cases hlocated : Located.ofCodeLine? last <;> simp [hlocated]
      rw [hsingle]
      exact hstep

theorem foldl_step_filter (origin : String) (r : DefaultsReader) (statements : List CodeLine) :
    (statements.filter fun s => !s.text.isEmpty).foldl (step origin) r =
      statements.foldl (step origin) r := by
  rw [List.foldl_filter]
  congr 1
  funext r s
  split
  · rfl
  · rename_i hempty
    rw [Bool.not_eq_true, Bool.not_eq_false'] at hempty
    have hdelimiter : isDelimiter s.text = true := by
      rw [isDelimiter, hempty]
      rfl
    rw [step, if_pos hdelimiter]

end DefaultsReader

namespace DefaultsDocument

open Assignment (Located)

/-- The assignments among the statements of a text, which are those of its lines of code. -/
def assignments (text : List Char) : List Located :=
  (CodeLine.ofLines (Text.lines text)).filterMap Located.ofCodeLine?

/-- The record says what the first assignment of its name says, and is as wide as the widest index list of
the name if that assignment has one. -/
structure Describes (as : List Located) (first : Located) (record : DefaultsRecord) : Prop where
  name : record.name = String.ofList first.name
  defaultValue : record.defaultValue = first.defaultValue
  inferred : record.inferred = first.inferred
  line : record.line = first.line
  scalar : first.index = none → record.dim = 0
  array : first.index.isSome = true → record.dim ∈ Located.ranks first.key as ∧
    ∀ rank ∈ Located.ranks first.key as, rank ≤ record.dim

/-- The document has read these assignments. -/
structure RecordsOf (as : List Located) (d : DefaultsDocument) : Prop where
  valid : ∀ record ∈ d.records, Name.isValid record.name = true
  distinct : (d.records.map fun record => Name.fold record.name).Nodup
  /-- The order of a record is its place, up to what fits 32 bits. -/
  order : ∀ place record, d.records[place]? = some record → record.order.toNat = min place 4294967295
  lines : d.records.Pairwise fun earlier later => earlier.line < later.line
  described : ∀ record ∈ d.records, ∃ first,
    Located.first? (Name.fold record.name) as = some first ∧ Describes as first record
  complete : ∀ a ∈ as, ∃ record ∈ d.records, Name.fold record.name = a.key
  /-- An assignment introduces a record, is to a further element of an array, or is a repetition. -/
  count : as.length =
    d.records.length + Located.elements as + Warning.count .duplicateInDocument d.warnings
  skipped : d.skipped = Warning.count .malformedRecord d.warnings

theorem describes_recordOf {as : List Located} {first : Located} (h : first ∈ as) (place : Nat)
    (doc : String) : Describes as first { DefaultsReader.recordOf as place first with doc } where
  name := rfl
  defaultValue := by rw [DefaultsReader.recordOf]
  inferred := by rw [DefaultsReader.recordOf]
  line := rfl
  scalar hindex := by
    change DefaultsReader.dimOf as first = 0
    rw [DefaultsReader.dimOf, hindex]
    rfl
  array hindex := by
    change DefaultsReader.dimOf as first ∈ _ ∧ ∀ rank ∈ _, rank ≤ DefaultsReader.dimOf as first
    rw [DefaultsReader.dimOf, if_pos hindex]
    obtain ⟨index, hmem⟩ := Located.exists_rankOf_mem_ranks h hindex
    exact DefaultsReader.foldl_max_mem (List.ne_nil_of_mem hmem)

theorem reads_parse (origin : String) (text : List Char) :
    ∃ (r : DefaultsReader) (doc : String → String), DefaultsReader.Reads (assignments text) r ∧
      (parse origin text).warnings = r.warnings.reverse ∧
      (parse origin text).records = (Located.firsts (assignments text)).mapIdx fun place first =>
        { DefaultsReader.recordOf (assignments text) place first with doc := doc first.key } := by
  have hreads := DefaultsReader.reads_foldl_step origin
    (CodeLine.pairwise_number_ofLines (Text.lines text))
  rw [CodeLine.ofLines, ← DefaultsItem.filter_statements, DefaultsReader.foldl_step_filter,
    DefaultsItem.filter_statements] at hreads
  refine ⟨_, fun key => ((Doc.ofEvents ((DefaultsItem.ofLinesFrom 1 (Text.lines text)).map
    DefaultsItem.docEvent)).lookup key).getD "", hreads, rfl, ?_⟩
  rw [parse, ofItems]
  dsimp only
  rw [hreads.records, DefaultsReader.map_mapIdx]
  rfl

/-- The records of a document are those of its assignments. -/
theorem recordsOf_parse (origin : String) (text : List Char) :
    RecordsOf (assignments text) (parse origin text) := by
  obtain ⟨r, doc, hreads, hwarnings, hrecords⟩ := reads_parse origin text
  have hlines : (assignments text).Pairwise fun earlier later => earlier.line < later.line :=
    DefaultsReader.pairwise_line (CodeLine.pairwise_number_ofLines (Text.lines text))
  refine ⟨fun _ => isValid_of_mem_parse, nodup_fold_parse origin text, ?_, ?_, ?_, ?_, ?_,
    skipped_parse origin text⟩
  · intro place record hrecord
    rw [hrecords, List.getElem?_mapIdx] at hrecord
    obtain ⟨first, -, rfl⟩ := Option.map_eq_some_iff.mp hrecord
    exact UInt32.toNat_ofNat_of_lt (Nat.lt_succ_of_le (Nat.min_le_right place 4294967295))
  · rw [hrecords, List.pairwise_iff_getElem]
    intro i j hi hj hij
    rw [List.length_mapIdx] at hi hj
    rw [List.getElem_mapIdx, List.getElem_mapIdx]
    exact List.pairwise_iff_getElem.mp (hlines.filter _) i j hi hj hij
  · intro record hrecord
    rw [hrecords, List.mem_mapIdx] at hrecord
    obtain ⟨place, hplace, rfl⟩ := hrecord
    have hfirst := List.getElem_mem hplace
    exact ⟨_, Located.mem_firsts_iff.mp hfirst,
      describes_recordOf (Located.mem_of_mem_firsts hfirst) place _⟩
  · intro a ha
    obtain ⟨first, hfirst⟩ := Located.exists_first? ha
    have hkey := Located.key_of_first? hfirst
    have hmem : first ∈ Located.firsts (assignments text) :=
      Located.mem_firsts_iff.mpr (by rw [hkey, hfirst])
    obtain ⟨place, hplace, hget⟩ := List.getElem_of_mem hmem
    refine ⟨_, hrecords ▸ List.mem_mapIdx.mpr ⟨place, hplace, rfl⟩, ?_⟩
    change (Located.firsts (assignments text))[place].key = a.key
    rw [hget, hkey]
  · rw [← hreads.repetitions, hwarnings, Warning.count_reverse, hrecords, List.length_mapIdx]

end DefaultsDocument

end NamelistCatalog
