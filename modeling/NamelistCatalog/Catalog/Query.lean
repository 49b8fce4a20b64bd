import NamelistCatalog.Catalog
import NamelistCatalog.Text.Search

namespace NamelistCatalog

/-- Why a question has no answer. -/
inductive QueryError where
  /-- No entry has the name, which is kept as it was asked. -/
  | notFound (name : String)
  /-- A search without any pattern. -/
  | emptyQuery
deriving DecidableEq, Repr

def QueryError.message : QueryError → String
  | .notFound name => "no entry named " ++ name
  | .emptyQuery => "search requires at least one pattern"

/-- The versions that a catalog carries. -/
structure CatalogVersion where
  schema : UInt32
  source : SourceVersion
deriving DecidableEq, Repr

def CatalogVersion.display (v : CatalogVersion) : String :=
  v.source.text ++ " (schema " ++ toString v.schema.toNat ++ ")"

namespace Catalog

/-- The first place from `lo` to `hi` whose key is not below `key`, found by halving. -/
def lowerBound (entries : Array Entry) (key : String) (lo hi : Nat) (h : hi ≤ entries.size) : Nat :=
  if hlt : lo < hi then
    if entries[(lo + hi) / 2].key < key then lowerBound entries key ((lo + hi) / 2 + 1) hi h
    else lowerBound entries key lo ((lo + hi) / 2) (by omega)
  else lo
termination_by hi - lo

/-- The first place in the catalog whose key is not below `key`. -/
def place (c : Catalog) (key : String) : Nat :=
  lowerBound c.entries key 0 c.entries.size (Nat.le_refl _)

def find? (c : Catalog) (name : String) : Option Entry :=
  (c.entries[c.place (Name.fold name)]?).filter fun e => e.key == Name.fold name

def entry (c : Catalog) (name : String) : Except QueryError Entry :=
  match c.find? name with
  | some e => .ok e
  | none => .error (.notFound name)

def doc (c : Catalog) (name : String) : Except QueryError String :=
  (c.entry name).map Entry.doc

def defaultText (c : Catalog) (name : String) : Except QueryError String :=
  (c.entry name).map fun e => e.defaultValue.display

def summary (c : Catalog) (name : String) : Except QueryError String :=
  (c.entry name).map Entry.summary

def version (c : Catalog) : CatalogVersion := ⟨c.info.schemaVersion, c.info.sourceVersion⟩

/-- The text in which documentation is searched: summary and documentation in lower case. -/
def searchText (e : Entry) : List Char := Text.lower (e.summary.toList ++ '\n' :: e.doc.toList)

/-- The names of the entries for which some pattern in lower case occurs in `text`. -/
def search (c : Catalog) (text : Entry → List Char) (patterns : List String) :
    Except QueryError (List String) :=
  if patterns.isEmpty then .error .emptyQuery
  else
    let needles := patterns.map fun p => Text.lower p.toList
    .ok ((c.entries.toList.filter fun e =>
      let hay := text e
      needles.any fun needle => Text.contains needle hay).map Entry.name)

def searchNames (c : Catalog) (patterns : List String) : Except QueryError (List String) :=
  c.search (fun e => e.key.toList) patterns

/-- The names whose summary or documentation contains some pattern. -/
def searchDocs (c : Catalog) (patterns : List String) : Except QueryError (List String) :=
  c.search searchText patterns

/-- The entries whose folded name starts with the folded text. They are neighbours. -/
def entriesFrom (c : Catalog) (start : String) : List Entry :=
  (c.entries.toList.drop (c.place (Name.fold start))).takeWhile fun e =>
    (Name.fold start).toList.isPrefixOf e.key.toList

def namesFrom (c : Catalog) (start : String) : List String := (c.entriesFrom start).map Entry.name

/-- Names are listed by folded name, then as written. -/
def nameTextLe (a b : String) : Bool :=
  decide (Name.fold a < Name.fold b) || (Name.fold a == Name.fold b && decide (a ≤ b))

/-- Drops each name that repeats its neighbour. -/
def dropRepeats : List String → List String
  | [] => []
  | [name] => [name]
  | a :: b :: rest => if a == b then dropRepeats (b :: rest) else a :: dropRepeats (b :: rest)

/-- The names that start with one of several texts: what each text gives, put in order and without
repetition. -/
def namesFromAny (c : Catalog) (starts : List String) : Except QueryError (List String) :=
  if starts.isEmpty then .error .emptyQuery
  else .ok (dropRepeats ((starts.flatMap c.namesFrom).mergeSort nameTextLe))

end Catalog

end NamelistCatalog
