import NamelistCatalog.Store.Error

namespace NamelistCatalog

/-- What is inconsistent in a configuration. -/
inductive ConfigProblem where
  | invalidNamelistName (name : String)
  | repeatedNamelist (name : String)
  | noDocuments (name : String)
  | emptyVersion
  /-- No version was given, and the file that should tell it is blank. -/
  | emptyVersionFile (path : Path)
deriving DecidableEq, Repr

def ConfigProblem.message : ConfigProblem → String
  | .invalidNamelistName name => "invalid namelist name `" ++ name ++ "`"
  | .repeatedNamelist name => "namelist `" ++ name ++ "` is listed twice"
  | .noDocuments name => "namelist `" ++ name ++ "` has no documents"
  | .emptyVersion => "empty version"
  | .emptyVersionFile path => "empty version in " ++ path.text

/-- Why a catalog cannot be built or loaded. -/
inductive BuildError where
  | noEntries
  | store (cause : StoreError)
  | invalid (problem : Invalid)
  | io (fault : IoFault)
  /-- A text is no YAML, or not that of a configuration. -/
  | yaml
  | config (problem : ConfigProblem)
  | missingSourceRoot
deriving DecidableEq, Repr

namespace BuildError

def message : BuildError → String
  | .noEntries => "no entries extracted from any source"
  | .store cause => cause.message
  | .invalid problem => "invalid database: " ++ problem.message
  | .io fault => "I/O error: " ++ fault.message
  | .yaml => "YAML error: not a build configuration"
  | .config problem => "invalid configuration: " ++ problem.message
  | .missingSourceRoot => "no source root given and MESA_DIR is not set"

/-- Whether the error is that there is no artifact. -/
def isNotFound : BuildError → Bool
  | .store (.notFound _) => true
  | _ => false

end BuildError

end NamelistCatalog
