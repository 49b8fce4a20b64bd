import NamelistCatalog.Files.Fault
import NamelistCatalog.Files.Path

namespace NamelistCatalog

/-- What lies at a path. -/
inductive FileKind where
  | file
  | directory
deriving DecidableEq, Repr

/-- Steps on files, in a context `m` that holds them. -/
class Disk (m : Type → Type) where
  /-- What lies at a path. -/
  kind : Path → m (Except IoFault FileKind)
  /-- The bytes of a file. -/
  read : Path → m (Except IoFault (List UInt8))
  /-- Gives a file these bytes; a file that is not there is made. -/
  write : Path → List UInt8 → m (Except IoFault Unit)
  /-- Makes a directory and those above it, as far as they are not there. -/
  makeDirectories : Path → m (Except IoFault Unit)
  /-- Makes an empty file with a new name in the directory of a path. Neither the path nor that of its
  backup leads to it. -/
  createTemporary : Path → m (Except IoFault Path)
  /-- Makes sure that a file or a directory is kept. -/
  sync : Path → m (Except IoFault Unit)
  /-- Empties a file, as `write` makes or finds it, and gives it the bytes of another. -/
  copy : Path → Path → m (Except IoFault Unit)
  /-- Moves a file to a path, in place of the file there, in one step. -/
  rename : Path → Path → m (Except IoFault Unit)
  /-- Removes a file, if it is there. -/
  remove : Path → m Unit

namespace Disk

def isFile {m : Type → Type} [Monad m] [Disk m] (path : Path) : m Bool := do
  match ← Disk.kind path with
  | .ok .file => pure true
  | _ => pure false

end Disk

end NamelistCatalog
