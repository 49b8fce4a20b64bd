import NamelistCatalog.Files.Path
import NamelistCatalog.Store

namespace NamelistCatalog

/-- Steps of a storage engine, in a context `m` that holds its files. A step that fails gives the reason
in the engine's words. -/
class Storage (m : Type → Type) where
  /-- Opens the empty file at a path, writes a store in one transaction and closes the file. -/
  save : Path → Store → m (Except String Unit)
  /-- Opens what lies at a path for reading: the store in it. -/
  load : Path → m (Except String Store)

end NamelistCatalog
