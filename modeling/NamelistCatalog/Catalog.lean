import NamelistCatalog.Validation

/-!
The catalog: a validated collection of entries, listed by folded name, with the release that it
documents. A catalog holds the proof that its entries are valid and in strictly increasing order of
their keys, so every lookup may rely on it.
-/

namespace NamelistCatalog

/-- What is known about a catalog as a whole. -/
structure CatalogInfo where
  /-- The layout version of the stored form. -/
  schemaVersion : UInt32
  /-- The highest version among the entries. -/
  sourceVersion : SourceVersion
  /-- The time of the build that produced the catalog. -/
  generatedAt : String
deriving DecidableEq, Repr

/-- The layout version that this library writes and reads. -/
def currentSchema : UInt32 := 1

/-- Valid entries in strictly increasing order of their keys. -/
def Entry.Listed (entries : List Entry) : Prop :=
  (∀ e ∈ entries, e.check = none) ∧ entries.Pairwise fun a b => a.key < b.key

theorem Entry.listed_sortByName {entries : List Entry} (h : checkAll entries = none) :
    Listed (sortByName entries) := by
  obtain ⟨hvalid, hkeys⟩ := checkAll_eq_none_iff.mp h
  have hperm := sortByName_perm entries
  refine ⟨fun e he => hvalid e (hperm.mem_iff.mp he), ?_⟩
  exact pairwise_key_lt_sortByName (hperm.symm.pairwise hkeys fun hab => Ne.symm hab)

/-- A validated collection of entries. -/
structure Catalog where
  info : CatalogInfo
  entries : Array Entry
  listed : Entry.Listed entries.toList

namespace Catalog

/-- The catalog of these entries, or what keeps them from being one. -/
def ofEntries (info : CatalogInfo) (entries : List Entry) : Except Invalid Catalog :=
  match h : Entry.checkAll entries with
  | some problem => .error problem
  | none =>
      .ok { info
            entries := (Entry.sortByName entries).toArray
            listed := by simpa using Entry.listed_sortByName h }

/-- The catalog of these entries in the current layout, documenting their highest version. -/
def build (generatedAt : String) (entries : List Entry) : Except Invalid Catalog :=
  ofEntries
    { schemaVersion := currentSchema
      sourceVersion := SourceVersion.maximum (entries.map Entry.version)
      generatedAt }
    entries

def size (c : Catalog) : Nat := c.entries.size

theorem ext {a b : Catalog} (hinfo : a.info = b.info) (hentries : a.entries = b.entries) :
    a = b := by
  cases a
  cases b
  cases hinfo
  cases hentries
  rfl

instance : DecidableEq Catalog := fun a b =>
  if h : a.info = b.info ∧ a.entries = b.entries then isTrue (ext h.1 h.2)
  else isFalse fun heq => h (heq ▸ ⟨rfl, rfl⟩)

end Catalog

end NamelistCatalog
