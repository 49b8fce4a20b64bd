import NamelistCatalog.Proofs.Store.History

namespace NamelistCatalog

/-- A statement of the transaction in which a catalog is written. -/
inductive WriteStep where
  | createTables
  | insert (e : Entry)
  | putFact (key value : String)
  | setUserVersion (version : UInt32)

namespace Store

/-- The store after a statement. A table is created only when it is missing. -/
def perform (s : Store) : WriteStep → Except StoreFault Store
  | .createTables => .ok { s with entries := some s.rows, metadata := some s.facts }
  | .insert e => do
      let rows ← s.editableEntries
      let added ← EntryRow.add rows e
      pure { s with entries := some added }
  | .putFact key value => do
      let metadata ← s.editableMetadata
      pure { s with metadata := some (putMetadata key value metadata) }
  | .setUserVersion version => .ok { s with userVersion := keptVersion version }

/-- Performs statements up to the first that fails: the store that they reach, and that failure. -/
def performAll (s : Store) : List WriteStep → Store × Option StoreFault
  | [] => (s, none)
  | step :: rest =>
      match s.perform step with
      | .ok next => next.performAll rest
      | .error fault => (s, some fault)

/-- Performs statements as one transaction, which is rolled back when one of them fails. -/
def transact (s : Store) (steps : List WriteStep) : Store × Option StoreFault :=
  match s.performAll steps with
  | (done, none) => (done, none)
  | (_, some fault) => (s, some fault)

def writeSteps (c : Catalog) : List WriteStep :=
  .createTables :: (c.entries.toList.map .insert ++
    ((metadataOf c).map (fun p => .putFact p.1 p.2) ++ [.setUserVersion c.info.schemaVersion]))

/-- A row has the folded name of an entry of the catalog. -/
def Conflicts (s : Store) (c : Catalog) : Prop :=
  ∃ e ∈ c.entries.toList, ∃ r ∈ s.rows, r.foldedName = e.key

/-- What a catalog adds to a store. Its rows stand behind those that are there, in the order in which
rows are read; its facts replace those under their keys and leave all others. -/
structure Appended (s : Store) (c : Catalog) (written : Store) : Prop where
  userVersion : written.userVersion = keptVersion c.info.schemaVersion
  rows : ∃ new, written.entries = some (s.rows ++ new) ∧
    List.Forall₂ (fun r e => r = EntryRow.ofEntry r.id e) new c.entries.toList ∧
    (s.rows ++ new).Pairwise fun a b => a.id < b.id
  facts : ∃ facts, written.metadata = some facts ∧ (facts.map Prod.fst).Nodup ∧
    (∀ p ∈ metadataOf c, facts.lookup p.1 = some p.2) ∧
    ∀ key, key ∉ (metadataOf c).map Prod.fst → facts.lookup key = s.facts.lookup key

variable {s written : Store} {c : Catalog} {fault : StoreFault}

theorem performAll_append (s : Store) (first rest : List WriteStep) :
    s.performAll (first ++ rest) =
      match s.performAll first with
      | (done, none) => done.performAll rest
      | stopped => stopped := by
  induction first generalizing s with
  | nil => rfl
  | cons step more ih =>
      rw [List.cons_append, performAll, performAll]
      split
      · exact ih _
      · rfl

theorem performAll_inserts {rows added : List EntryRow} {entries : List Entry}
    (hrows : s.entries = some rows) (h : entries.foldlM EntryRow.add rows = .ok added) :
    s.performAll (entries.map .insert) = ({ s with entries := some added }, none) := by
  induction entries generalizing s rows with
  | nil =>
      obtain rfl := Except.ok.inj h
      rw [← hrows]
      rfl
  | cons e rest ih =>
      rw [List.foldlM_cons] at h
      obtain ⟨next, hnext, h⟩ := bind_eq_ok_iff.mp h
      have hinsert : s.perform (.insert e) = .ok { s with entries := some next } := by
        simp [perform, editableEntries_eq_ok_iff.mpr hrows, hnext, bind, Except.bind, pure, Except.pure]
      rw [List.map_cons, performAll, hinsert]
      exact ih rfl h

theorem performAll_inserts_error {rows : List EntryRow} {entries : List Entry}
    (hrows : s.entries = some rows) (h : entries.foldlM EntryRow.add rows = .error fault) :
    ∃ before e after added, entries = before ++ e :: after ∧
      before.foldlM EntryRow.add rows = .ok added ∧
      s.performAll (entries.map .insert) =
        ({ s with entries := some added }, some fault) := by
  induction entries generalizing s rows with
  | nil => cases h
  | cons e rest ih =>
      rw [List.foldlM_cons] at h
      cases hadd : EntryRow.add rows e with
      | error found =>
          rw [hadd] at h
          obtain rfl := Except.error.inj h
          have hinsert : s.perform (.insert e) = .error found := by
            simp [perform, editableEntries_eq_ok_iff.mpr hrows, hadd, bind, Except.bind]
          refine ⟨[], e, rest, rows, rfl, rfl, ?_⟩
          rw [List.map_cons, performAll, hinsert, ← hrows]
      | ok next =>
          rw [hadd] at h
          have hinsert : s.perform (.insert e) = .ok { s with entries := some next } := by
            simp [perform, editableEntries_eq_ok_iff.mpr hrows, hadd, bind, Except.bind, pure,
              Except.pure]
          obtain ⟨before, stuck, after, added, rfl, hbefore, hstop⟩ :=
            ih (s := { s with entries := some next }) rfl h
          refine ⟨e :: before, stuck, after, added, rfl, ?_, ?_⟩
          · rw [List.foldlM_cons, hadd]
            exact hbefore
          · rw [List.map_cons, performAll, hinsert]
            exact hstop

theorem performAll_putFacts {pairs metadata : List (String × String)}
    (h : s.metadata = some metadata) :
    s.performAll (pairs.map fun p => .putFact p.1 p.2) =
      ({ s with metadata := some (putAll pairs metadata) }, none) := by
  induction pairs generalizing s metadata with
  | nil =>
      show (s, none) = ({ s with metadata := some metadata }, none)
      rw [← h]
  | cons p rest ih =>
      have hput : s.perform (.putFact p.1 p.2) =
          .ok { s with metadata := some (putMetadata p.1 p.2 metadata) } := by
        simp [perform, editableMetadata_eq_ok_iff.mpr h, bind, Except.bind, pure, Except.pure]
      rw [List.map_cons, performAll, hput]
      exact ih rfl

/-- The transaction does what `write` does, and one that fails leaves the store as it was. -/
theorem transact_writeSteps (s : Store) (c : Catalog) :
    s.transact (writeSteps c) =
      match s.write c with
      | .ok written => (written, none)
      | .error fault => (s, some fault) := by
  have hcreate : s.performAll (writeSteps c) =
      ({ s with entries := some s.rows, metadata := some s.facts } : Store).performAll
        (writeSteps c).tail := rfl
  have hgetD : s.entries.getD [] = s.rows := rfl
  rw [transact, hcreate, writeSteps, List.tail_cons, performAll_append, write, hgetD]
  cases hrows : c.entries.toList.foldlM EntryRow.add s.rows with
  | error fault =>
      obtain ⟨_, _, _, _, -, -, hstop⟩ := performAll_inserts_error
        (s := { s with entries := some s.rows, metadata := some s.facts }) rfl hrows
      rw [hstop]
      rfl
  | ok added =>
      rw [performAll_inserts rfl hrows]
      dsimp only
      rw [performAll_append, performAll_putFacts rfl]
      rfl

theorem write_eq_error_iff :
    (∃ fault, s.write c = .error fault) ↔ s.Conflicts c := by
  rw [Conflicts]
  constructor
  · rintro ⟨fault, h⟩
    by_contra hnone
    push Not at hnone
    rw [write_eq_ok_iff.mpr ⟨hnone, rfl⟩] at h
    cases h
  · rintro ⟨e, he, r, hr, hkey⟩
    cases h : s.write c with
    | error fault => exact ⟨fault, rfl⟩
    | ok written => exact absurd hkey ((write_eq_ok_iff.mp h).1 e he r hr)

theorem forall₂_ofEntries (id : Nat) (entries : List Entry) :
    List.Forall₂ (fun r e => r = EntryRow.ofEntry r.id e) (EntryRow.ofEntries id entries) entries := by
  induction entries generalizing id with
  | nil => exact .nil
  | cons e rest ih => exact .cons rfl (ih (id + 1))

theorem WellFormed.appended (h : s.WellFormed)
    (hfree : ∀ e ∈ c.entries.toList, ∀ r ∈ s.rows, r.foldedName ≠ e.key) :
    s.Appended c (s.append c) where
  userVersion := rfl
  rows := ⟨_, rfl, forall₂_ofEntries _ _, (h.append hfree).rows.ids⟩
  facts := by
    have hkeys : ((metadataOf c).map Prod.fst).Nodup := by
      change [sourceVersionKey, generatedAtKey, entryCountKey, contentHashKey].Nodup
      decide
    refine ⟨_, rfl, (h.append hfree).keys, ?_, ?_⟩
    · intro p hp
      exact lookup_factsWith ((Association.lookup_eq_some_iff_mem hkeys).mpr hp)
    · intro key hkey
      rw [factsWith, lookup_putAll hkeys, Association.lookup_eq_none_iff_not_mem.mpr hkey]
      rfl

/-- Whatever has happened to a store, writing a catalog to it fails exactly when a row has the folded
name of one of its entries. The transaction of a write that fails leaves the store as it was, and that
of a write that succeeds appends the catalog to it. -/
theorem write_after (changes : List Change) (c : Catalog) :
    ((∃ fault, (after changes).write c = .error fault) ↔ (after changes).Conflicts c) ∧
      (∀ fault, (after changes).write c = .error fault →
        (after changes).transact (writeSteps c) = (after changes, some fault)) ∧
      ∀ written, (after changes).write c = .ok written →
        (after changes).transact (writeSteps c) = (written, none) ∧
          (after changes).Appended c written := by
  have hrun := transact_writeSteps (after changes) c
  refine ⟨write_eq_error_iff, ?_, ?_⟩
  · intro fault hfault
    rw [hrun, hfault]
  · intro written hwritten
    obtain ⟨hfree, rfl⟩ := write_eq_ok_iff.mp hwritten
    rw [hrun, hwritten]
    exact ⟨rfl, (wellFormed_after changes).appended hfree⟩

/-- A catalog is written and the table of facts dropped. -/
def droppedFacts : List Change := [.write firstCatalog, .edit (.dropTable .metadata)]

theorem after_droppedFacts :
    after droppedFacts = { userVersion := 1, entries := (ofCatalog firstCatalog).entries } := by
  show (attempt {} firstCatalog).tamper (.dropTable .metadata) = _
  rw [attempt, write_empty]
  rfl

theorem write_after_droppedFacts :
    (after droppedFacts).Conflicts firstCatalog ∧
      (after droppedFacts).transact (writeSteps firstCatalog) =
        (after droppedFacts, some .foldedNameTaken) ∧
      ∃ written, (after droppedFacts).write secondCatalog = .ok written ∧
        (after droppedFacts).Appended secondCatalog written := by
  have hrefused : (after droppedFacts).write firstCatalog = .error .foldedNameTaken := by
    rw [after_droppedFacts]
    rfl
  have haccepted : (after droppedFacts).write secondCatalog =
      .ok ((after droppedFacts).append secondCatalog) := by
    rw [after_droppedFacts]
    exact write_eq_ok_iff.mpr ⟨by decide +kernel, rfl⟩
  obtain ⟨hconflict, hkept, -⟩ := write_after droppedFacts firstCatalog
  obtain ⟨-, -, hadded⟩ := write_after droppedFacts secondCatalog
  exact ⟨hconflict.mp ⟨_, hrefused⟩, hkept _ hrefused, _, haccepted, (hadded _ haccepted).2⟩

end Store

end NamelistCatalog
