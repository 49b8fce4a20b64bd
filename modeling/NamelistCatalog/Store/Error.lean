import NamelistCatalog.Catalog
import NamelistCatalog.Files.Fault
import NamelistCatalog.Files.Path

namespace NamelistCatalog

/-- The tables of an artifact. -/
inductive Table where
  | entries
  | metadata
deriving DecidableEq, Repr

def Table.name : Table → String
  | .entries => "entries"
  | .metadata => "meta"

/-- The columns of the table `entries` that hold an entry; the column `id` holds the place of its row. -/
inductive Column where
  | name
  | foldedName
  | namelist
  | valueType
  | dim
  | ord
  | defaultValue
  | summary
  | doc
  | version
  | origin
deriving DecidableEq, Repr

namespace Column

/-- All columns, in the order in which a row has them. -/
def all : List Column :=
  [.name, .foldedName, .namelist, .valueType, .dim, .ord, .defaultValue, .summary, .doc, .version,
    .origin]

def label : Column → String
  | .name => "name"
  | .foldedName => "folded_name"
  | .namelist => "namelist"
  | .valueType => "value_type"
  | .dim => "dim"
  | .ord => "ord"
  | .defaultValue => "default_value"
  | .summary => "summary"
  | .doc => "doc"
  | .version => "version"
  | .origin => "origin"

def ofLabel? (label : String) : Option Column := all.find? fun c => c.label == label

/-- The place of a column among those of a row. -/
def index (c : Column) : Nat := all.findIdx (· == c)

theorem mem_all (c : Column) : c ∈ all := by
  cases c <;> decide

end Column

/-- What a column of whole numbers holds. A number that is not whole, or has too many digits, is kept
as a real one, and text that is no number stays text. -/
inductive NumberCell where
  | number (n : Int)
  | real (spelling : String)
  | text (s : String)
deriving DecidableEq, Repr

/-- The types of cells that hold no whole number. -/
inductive CellType where
  | real
  | text
deriving DecidableEq, Repr

def CellType.name : CellType → String
  | .real => "Real"
  | .text => "Text"

/-- Why a change of a store is refused. -/
inductive StoreFault where
  | noSuchTable (table : Table)
  /-- A column that needs a value has none; `place` is its table and its name. -/
  | missingValue (place : String)
  /-- A row has the folded name already. -/
  | foldedNameTaken
deriving DecidableEq, Repr

def StoreFault.message : StoreFault → String
  | .noSuchTable table => "no such table: " ++ table.name
  | .missingValue place => "NOT NULL constraint failed: " ++ place
  | .foldedNameTaken => "UNIQUE constraint failed: entries." ++ Column.foldedName.label

/-- Why an artifact cannot be decoded. -/
inductive Corruption where
  | notAFile (path : Path)
  /-- The storage engine does not open the file, for a reason in its own words. -/
  | unreadable (reason : String)
  | missingSchemaVersion
  | invalidSchemaVersion (version : Int)
  | missingTable (table : Table)
  | missingMetadata (key : String)
  | invalidEntryCount
  /-- A column of whole numbers holds something else. -/
  | wrongColumnType (column : Column) (type : CellType)
  | unknownValueType (name label : String)
  | invalidRank (name : String) (rank : Int)
  | invalidOrder (name : String)
  | wrongFoldedName (name folded : String)
  | wrongCount (expected found : Nat)
  | invalid (problem : Invalid)
  | wrongHash
deriving DecidableEq, Repr

/-- What is wrong with an artifact, in words. -/
def Corruption.message : Corruption → String
  | .notAFile path => path.text ++ " is not a file"
  | .unreadable reason => reason
  | .missingSchemaVersion => "missing schema version"
  | .invalidSchemaVersion version => "invalid schema version " ++ toString version
  | .missingTable table => "missing table `" ++ table.name ++ "`"
  | .missingMetadata key => "missing metadata `" ++ key ++ "`"
  | .invalidEntryCount => "invalid entry count"
  | .wrongColumnType column type =>
      "Invalid column type " ++ type.name ++ " at index: " ++ toString column.index ++ ", name: " ++
        column.label
  | .unknownValueType name label =>
      "entry `" ++ name ++ "` has unknown value type `" ++ label ++ "`"
  | .invalidRank name rank => "entry `" ++ name ++ "` has invalid rank " ++ toString rank
  | .invalidOrder name => "entry `" ++ name ++ "` has invalid order"
  | .wrongFoldedName name folded =>
      "entry `" ++ name ++ "` is stored under folded name `" ++ folded ++ "`"
  | .wrongCount expected found =>
      "expected " ++ toString expected ++ " entries, found " ++ toString found
  | .invalid problem => problem.message
  | .wrongHash => "content checksum mismatch"

/-- Why a catalog cannot be stored or read back. -/
inductive StoreError where
  /-- There is no artifact at the path. -/
  | notFound (path : Path)
  /-- The artifact has another layout. -/
  | incompatible (found : Nat)
  | corrupt (cause : Corruption)
  | storage (fault : StoreFault)
  /-- The storage engine cannot write the file, for a reason in its own words. -/
  | engine (reason : String)
  | io (fault : IoFault)
deriving DecidableEq, Repr

def StoreError.message : StoreError → String
  | .notFound path => "artifact not found: " ++ path.text
  | .incompatible found =>
      "artifact schema version " ++ toString found ++ " is not supported (expected " ++
        toString currentSchema.toNat ++ ")"
  | .corrupt cause => "artifact is corrupt: " ++ cause.message
  | .storage fault => "database error: " ++ fault.message
  | .engine reason => "database error: " ++ reason
  | .io fault => "I/O error: " ++ fault.message

end NamelistCatalog
