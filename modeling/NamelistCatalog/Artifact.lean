import NamelistCatalog.Files.Disk
import NamelistCatalog.Store.Storage

/-!
Artifacts: catalogs in files. A catalog is published by writing it to a temporary file beside its
target and moving that file over the target in one step, so a reader finds the previous artifact or
the new one and nothing in between.
-/

namespace NamelistCatalog

/-- What was published where. -/
structure Published where
  path : Path
  /-- Where the previous artifact is kept, if it is. -/
  backup : Option Path
deriving DecidableEq, Repr

namespace Artifact

variable {m : Type → Type} [Monad m] [Disk m]

/-- A step on files, whose failure is one of the artifact. -/
def step {α : Type} (x : m (Except IoFault α)) : ExceptT StoreError m α :=
  ExceptT.mk do
    match ← x with
    | .ok a => pure (.ok a)
    | .error fault => pure (.error (.io fault))

/-- Copies the file at a path to its backup path, if it is a file and its content is to be kept. -/
def keepPrevious (path : Path) (keep : Bool) : ExceptT StoreError m (Option Path) := do
  let isFile ← (Disk.isFile path : m Bool)
  if keep && isFile then
    step (Disk.copy path path.backup)
    pure (some path.backup)
  else pure none

/-- Runs a step that uses up a temporary file, and removes that file when the step fails. -/
def orDiscard {α : Type} (temporary : Path) (x : ExceptT StoreError m α) :
    ExceptT StoreError m α :=
  ExceptT.mk do
    match ← x.run with
    | .ok a => pure (.ok a)
    | .error e =>
        Disk.remove temporary
        pure (.error e)

variable [Storage m]

def store (path : Path) : ExceptT StoreError m Store := do
  match ← (Disk.kind path : m _) with
  | .ok .file =>
      match ← (Storage.load path : m _) with
      | .ok s => pure s
      | .error reason => throw (.corrupt (.unreadable reason))
  | .ok .directory => throw (.corrupt (.notAFile path))
  | .error .notFound => throw (.notFound path)
  | .error fault => throw (.io fault)

def read (path : Path) : ExceptT StoreError m Catalog := do
  let s ← store path
  ExceptT.mk (pure s.read)

/-- The store of a new artifact that holds a catalog. -/
def storeOf (c : Catalog) : Except StoreError Store :=
  (({} : Store).write c).mapError .storage

/-- Puts a store into the empty file at a path. -/
def save (path : Path) (s : Store) : ExceptT StoreError m Unit :=
  ExceptT.mk do pure ((← Storage.save path s).mapError .engine)

/-- Fills a temporary file with a catalog and moves it to a path. -/
def replace (temporary path : Path) (c : Catalog) (keep : Bool) :
    ExceptT StoreError m (Option Path) := do
  let s ← ExceptT.mk (pure (storeOf c))
  save temporary s
  step (Disk.sync temporary)
  let backup ← keepPrevious path keep
  step (Disk.rename temporary path)
  pure backup

def publish (path : Path) (c : Catalog) (keep : Bool) : ExceptT StoreError m Published := do
  step (Disk.makeDirectories path.directory)
  let temporary ← step (Disk.createTemporary path)
  let backup ← orDiscard temporary (replace temporary path c keep)
  step (Disk.sync path.directory)
  pure { path, backup }

end Artifact

end NamelistCatalog
