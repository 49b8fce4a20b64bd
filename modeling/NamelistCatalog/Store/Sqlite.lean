import NamelistCatalog.Files.Tree
import NamelistCatalog.Store.Storage

namespace NamelistCatalog

/-- No rollback journal and no write-ahead log lies beside the file at a path. -/
def FileTree.IsAlone (t : FileTree) (p : Path) : Prop :=
  ∀ suffix ∈ ["-journal", "-wal"], t.kind (p.beside suffix) = .error .notFound

/-- SQLite on a tree of files. What it does with the bytes of a file is left open, but for two laws: a
store that fits is put into an empty file without touching another, unless that fails, and found there
again. -/
class Sqlite where
  /-- The stores that are kept as they are: their values are ones that SQLite has, and within its
  limits. -/
  Fits : Store → Prop
  /-- The bytes of a file that was empty before a store was written to it, after the connection was
  closed. -/
  image : Store → List UInt8
  /-- Writes a store through a path. -/
  save : FileTree → Path → Store → Except String Unit × FileTree
  /-- The store that is read through a path. -/
  load : FileTree → Path → Except String Store
  /-- The paths that are opened as files of that name, and not taken for a URI or for a database in
  memory, nor refused for their length. -/
  Opens : Path → Prop
  save_empty {t : FileTree} {p : Path} {place : Location} {id : Nat} (s : Store) : Opens p →
    t.find p = .ok (.file place id) → t.content id = [] → t.IsAlone p →
    (Fits s ∧ save t p s = (.ok (), t.setContent id (image s))) ∨
      ∃ reason bytes, save t p s = (.error reason, t.setContent id bytes)
  load_image {t : FileTree} {p : Path} {place : Location} {id : Nat} {s : Store} : Fits s →
    Opens p → t.entry p = .ok place → t.find p = .ok (.file place id) → t.content id = image s →
    t.IsAlone p → load t p = .ok s

instance [Sqlite] : Storage (StateM FileTree) where
  save p s := fun t => Sqlite.save t p s
  load p := fun t => (Sqlite.load t p, t)

end NamelistCatalog
