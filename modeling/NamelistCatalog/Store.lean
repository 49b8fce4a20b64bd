import NamelistCatalog.ContentHash
import NamelistCatalog.Store.Error

/-!
The stored form of a catalog: two tables and a layout version. The table `entries` has a row for
each entry, the table `meta` a row for each fact about the catalog as a whole.

Writing adds the rows of a catalog to the tables and is all or nothing. Reading checks everything
that it finds, so what it returns is what was written.
-/

namespace NamelistCatalog

/-- A row of the table `entries`. -/
structure EntryRow where
  /-- The place of the row: rows are read in increasing order of it. -/
  id : Nat
  name : String
  foldedName : String
  namelist : String
  valueType : String
  dim : NumberCell
  ord : Option NumberCell
  defaultValue : Option String
  summary : String
  doc : String
  version : String
  origin : String
deriving DecidableEq, Repr

/-- The tables of an artifact. A table that is missing is `none`. -/
structure Store where
  /-- The layout version; zero where none was written. -/
  userVersion : Int := 0
  entries : Option (List EntryRow) := none
  metadata : Option (List (String × String)) := none
deriving DecidableEq, Repr

namespace EntryRow

def ofEntry (id : Nat) (e : Entry) : EntryRow :=
  { id
    name := e.name
    foldedName := e.key
    namelist := e.namelist
    valueType := e.valueType.label
    dim := .number e.dim.toNat
    ord := e.order.map fun n => .number n.toNat
    defaultValue := e.defaultValue.literal?
    summary := e.summary
    doc := e.doc
    version := e.version.text
    origin := e.origin }

def number (column : Column) : NumberCell → Except Corruption Int
  | .number n => .ok n
  | .real _ => .error (.wrongColumnType column .real)
  | .text _ => .error (.wrongColumnType column .text)

def rank? (n : Int) : Option UInt8 := if 0 ≤ n ∧ n ≤ 255 then some (UInt8.ofNat n.toNat) else none

def order? (n : Int) : Option UInt32 :=
  if 0 ≤ n ∧ n ≤ 4294967295 then some (UInt32.ofNat n.toNat) else none

/-- The entry that a row stands for. The version loses the blanks around it. -/
def decode (r : EntryRow) : Except Corruption Entry := do
  let dim ← number .dim r.dim
  let ord ← r.ord.mapM (number .ord)
  let some valueType := ValueType.ofLabel? r.valueType
    | throw (.unknownValueType r.name r.valueType)
  let some rank := rank? dim
    | throw (.invalidRank r.name dim)
  let some order := ord.mapM order?
    | throw (.invalidOrder r.name)
  let e : Entry :=
    { name := r.name
      summary := r.summary
      doc := r.doc
      defaultValue := .ofLiteral? r.defaultValue
      version := SourceVersion.ofString r.version
      namelist := r.namelist
      valueType
      dim := rank
      order
      origin := r.origin }
  if e.key == r.foldedName then pure e else throw (.wrongFoldedName r.name r.foldedName)

/-- The place of a new row: after all rows that are there. -/
def nextId (rows : List EntryRow) : Nat := (rows.map EntryRow.id).foldl max 0 + 1

/-- Adds a row for an entry, unless a row has its folded name. -/
def add (rows : List EntryRow) (e : Entry) : Except StoreFault (List EntryRow) :=
  let key := e.key
  if rows.any fun r => r.foldedName == key then .error .foldedNameTaken
  else .ok (rows ++ [ofEntry (nextId rows) e])

end EntryRow

namespace Store

/-- The key under which the source version is kept. -/
def sourceVersionKey : String := "source_version"

/-- The key under which the time of the build is kept. -/
def generatedAtKey : String := "generated_at"

/-- The key under which the number of entries is kept. -/
def entryCountKey : String := "entry_count"

/-- The key under which the content hash is kept. -/
def contentHashKey : String := "content_hash"

/-- Sets the value of a key, whether or not it had one. -/
def putMetadata (key value : String) (metadata : List (String × String)) : List (String × String) :=
  metadata.filter (fun p => p.1 != key) ++ [(key, value)]

/-- Sets the values of several keys, one after the other. -/
def putAll (pairs metadata : List (String × String)) : List (String × String) :=
  pairs.foldl (fun m p => putMetadata p.1 p.2 m) metadata

def metadataOf (c : Catalog) : List (String × String) :=
  [(sourceVersionKey, c.info.sourceVersion.text), (generatedAtKey, c.info.generatedAt),
    (entryCountKey, toString c.size), (contentHashKey, c.contentHash)]

/-- The layout version as it is kept: a number with too many bits is lost. -/
def keptVersion (n : UInt32) : Int := if n.toNat ≤ 2147483647 then n.toNat else 0

/-- Adds a catalog to the store. Missing tables are made. -/
def write (s : Store) (c : Catalog) : Except StoreFault Store := do
  let rows ← c.entries.toList.foldlM EntryRow.add (s.entries.getD [])
  pure
    { userVersion := keptVersion c.info.schemaVersion
      entries := some rows
      metadata := some (putAll (metadataOf c) (s.metadata.getD [])) }

def entryRows (s : Store) : Except Corruption (List EntryRow) :=
  match s.entries with
  | some rows => .ok rows
  | none => .error (.missingTable .entries)

def metadataRows (s : Store) : Except Corruption (List (String × String)) :=
  match s.metadata with
  | some rows => .ok rows
  | none => .error (.missingTable .metadata)

def field (metadata : List (String × String)) (key : String) : Except Corruption String :=
  match metadata.lookup key with
  | some value => .ok value
  | none => .error (.missingMetadata key)

/-- The catalog in a store of the current layout. -/
def readCurrent (s : Store) : Except Corruption Catalog := do
  let rows ← s.entryRows
  let metadata ← s.metadataRows
  let sourceVersion ← field metadata sourceVersionKey
  let generatedAt ← field metadata generatedAtKey
  let count ← field metadata entryCountKey
  let some expected := Text.signedCount? count.toList
    | throw .invalidEntryCount
  let hash ← field metadata contentHashKey
  let entries ← rows.mapM EntryRow.decode
  if entries.length ≠ expected then throw (.wrongCount expected entries.length)
  match Catalog.ofEntries
      { schemaVersion := currentSchema
        sourceVersion := SourceVersion.ofString sourceVersion
        generatedAt }
      entries with
  | .error problem => throw (.invalid problem)
  | .ok c => if c.contentHash = hash then pure c else throw .wrongHash

/-- The catalog in a store. The layout version is looked at before any table. -/
def read (s : Store) : Except StoreError Catalog :=
  if s.userVersion < 0 then .error (.corrupt (.invalidSchemaVersion s.userVersion))
  else if s.userVersion = 0 then .error (.corrupt .missingSchemaVersion)
  else if s.userVersion ≠ currentSchema.toNat then .error (.incompatible s.userVersion.toNat)
  else
    match s.readCurrent with
    | .ok c => .ok c
    | .error cause => .error (.corrupt cause)

end Store

end NamelistCatalog
