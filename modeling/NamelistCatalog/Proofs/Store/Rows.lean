import NamelistCatalog.Proofs.Catalog
import NamelistCatalog.Proofs.Except
import NamelistCatalog.Store

namespace NamelistCatalog

theorem ValueType.ofLabel?_eq_some_iff {label : String} {t : ValueType} :
    ofLabel? label = some t ↔ label = t.label := by
  constructor
  · intro h
    unfold ofLabel? at h
    repeat' split at h
    all_goals cases h
    all_goals simp_all [ValueType.label]
  · rintro rfl
    exact ofLabel?_label t

theorem DefaultValue.literal?_ofLiteral? (literal : Option String) :
    (ofLiteral? literal).literal? = literal := by
  cases literal <;> rfl

namespace EntryRow

theorem number_eq_ok_iff {column : Column} {cell : NumberCell} {n : Int} :
    number column cell = .ok n ↔ cell = .number n := by
  cases cell <;> simp [number]

theorem mapM_number_eq_ok_iff {column : Column} {cell : Option NumberCell} {n : Option Int} :
    cell.mapM (number column) = .ok n ↔ cell = n.map .number := by
  cases cell with
  | none => cases n <;> simp [pure, Except.pure]
  | some cell => cases cell <;> cases n <;> simp [number, Functor.map, Except.map]

theorem rank?_eq_some_iff {n : Int} {rank : UInt8} : rank? n = some rank ↔ n = rank.toNat := by
  have hrank := rank.toNat_lt
  unfold rank?
  split
  · rw [Option.some.injEq, ← UInt8.toNat_inj, UInt8.toNat_ofNat']
    omega
  · simp only [reduceCtorEq, false_iff]
    omega

theorem order?_eq_some_iff {n : Int} {order : UInt32} :
    order? n = some order ↔ n = order.toNat := by
  have horder := order.toNat_lt
  unfold order?
  split
  · rw [Option.some.injEq, ← UInt32.toNat_inj, UInt32.toNat_ofNat']
    omega
  · simp only [reduceCtorEq, false_iff]
    omega

theorem mapM_order?_eq_some_iff {n : Option Int} {order : Option UInt32} :
    n.mapM order? = some order ↔ n = order.map fun o => (o.toNat : Int) := by
  cases n with
  | none => cases order <;> simp
  | some n => cases order <;> simp [order?_eq_some_iff]

theorem decode_ofEntry (id : Nat) (e : Entry) : (ofEntry id e).decode = .ok e.trimVersion := by
  have hdim : number .dim (.number e.dim.toNat) = .ok (e.dim.toNat : Int) := rfl
  have hord : (e.order.map fun n => NumberCell.number n.toNat).mapM (number .ord) =
      .ok (e.order.map fun n => (n.toNat : Int)) := by
    rw [mapM_number_eq_ok_iff, Option.map_map]
    rfl
  have hrank : rank? (e.dim.toNat : Int) = some e.dim := rank?_eq_some_iff.mpr rfl
  have horder : (e.order.map fun n => (n.toNat : Int)).mapM order? = some e.order :=
    mapM_order?_eq_some_iff.mpr rfl
  have hkey : e.trimVersion.key = e.key := rfl
  simp only [Entry.trimVersion] at hkey
  simp [decode, ofEntry, Entry.trimVersion, hdim, hord, hrank, horder, hkey, bind, Except.bind, pure,
    Except.pure]

theorem decode_eq_ok_iff {r : EntryRow} {e : Entry} :
    r.decode = .ok e ↔ ∃ raw, r = ofEntry r.id raw ∧ e = raw.trimVersion := by
  constructor
  · intro h
    unfold decode at h
    obtain ⟨dim, hdim, h⟩ := bind_eq_ok_iff.mp h
    obtain ⟨ord, hord, h⟩ := bind_eq_ok_iff.mp h
    split at h
    · rename_i valueType htype
      split at h
      · rename_i rank hrank
        split at h
        · rename_i order horder
          dsimp only at h
          split at h
          · rename_i hkey
            rw [beq_iff_eq] at hkey
            simp only [pure, Except.pure, Except.ok.injEq] at h
            rw [number_eq_ok_iff, rank?_eq_some_iff.mp hrank] at hdim
            rw [mapM_number_eq_ok_iff, mapM_order?_eq_some_iff.mp horder, Option.map_map] at hord
            rw [ValueType.ofLabel?_eq_some_iff] at htype
            subst h
            refine ⟨⟨r.name, r.summary, r.doc, .ofLiteral? r.defaultValue, ⟨r.version⟩, r.namelist,
              valueType, rank, order, r.origin⟩, ?_, rfl⟩
            cases r
            simp only [ofEntry, EntryRow.mk.injEq, true_and, and_true]
            exact ⟨hkey.symm, htype, hdim, hord, (DefaultValue.literal?_ofLiteral? _).symm⟩
          · cases h
        · cases h
      · cases h
    · cases h
  · rintro ⟨raw, hr, rfl⟩
    rw [hr]
    exact decode_ofEntry r.id raw

theorem exists_mem_of_mapM_decode {rows : List EntryRow} {entries : List Entry}
    (h : rows.mapM decode = .ok entries) {e : Entry} (he : e ∈ entries) :
    ∃ r ∈ rows, r.decode = .ok e := by
  have hall := mapM_eq_ok_iff.mp h
  clear h
  induction hall with
  | nil => simp at he
  | cons hdecode _ ih =>
      rcases List.mem_cons.mp he with rfl | he
      · exact ⟨_, List.mem_cons_self, hdecode⟩
      · obtain ⟨r, hr, hdecode⟩ := ih he
        exact ⟨r, List.mem_cons_of_mem _ hr, hdecode⟩

/-- The rows of entries, the first of which has this place. -/
def ofEntries (id : Nat) : List Entry → List EntryRow
  | [] => []
  | e :: rest => ofEntry id e :: ofEntries (id + 1) rest

theorem mapM_decode_ofEntries (id : Nat) (entries : List Entry) :
    (ofEntries id entries).mapM decode = .ok (entries.map Entry.trimVersion) := by
  rw [mapM_eq_ok_iff]
  induction entries generalizing id with
  | nil => exact .nil
  | cons e rest ih => exact .cons (decode_ofEntry id e) (ih (id + 1))

theorem nextId_append_ofEntry (rows : List EntryRow) (e : Entry) :
    nextId (rows ++ [ofEntry (nextId rows) e]) = nextId rows + 1 := by
  simp only [nextId, List.map_append, List.foldl_append, List.map_cons, List.map_nil,
    List.foldl_cons, List.foldl_nil, ofEntry]
  omega

theorem add_eq_ok {rows : List EntryRow} {e : Entry} (h : ∀ r ∈ rows, r.foldedName ≠ e.key) :
    add rows e = .ok (rows ++ [ofEntry (nextId rows) e]) := by
  have hfree : (rows.any fun r => r.foldedName == e.key) = false := by
    rw [List.any_eq_false]
    intro r hr
    simpa using h r hr
  simp [add, hfree]

theorem foldlM_add_eq_ok {rows : List EntryRow} {entries : List Entry}
    (hfree : ∀ e ∈ entries, ∀ r ∈ rows, r.foldedName ≠ e.key)
    (hdistinct : entries.Pairwise fun a b => a.key ≠ b.key) :
    entries.foldlM add rows = .ok (rows ++ ofEntries (nextId rows) entries) := by
  induction entries generalizing rows with
  | nil =>
      rw [ofEntries, List.append_nil]
      rfl
  | cons e rest ih =>
      rw [List.forall_mem_cons] at hfree
      obtain ⟨hhead, htail⟩ := List.pairwise_cons.mp hdistinct
      have hnext : ∀ d ∈ rest, ∀ r ∈ rows ++ [ofEntry (nextId rows) e], r.foldedName ≠ d.key := by
        intro d hd r hr
        rcases List.mem_append.mp hr with hr | hr
        · exact hfree.2 d hd r hr
        · rw [List.mem_singleton.mp hr]
          exact hhead d hd
      rw [List.foldlM_cons, add_eq_ok hfree.1]
      change rest.foldlM add (rows ++ [ofEntry (nextId rows) e]) = _
      rw [ih hnext htail, nextId_append_ofEntry, ofEntries, List.append_assoc]
      rfl

end EntryRow

end NamelistCatalog
