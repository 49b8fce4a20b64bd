import NamelistCatalog.Source
import NamelistCatalog.Version

namespace NamelistCatalog

/-- The documents of one namelist, given by paths below the root of a source tree. -/
structure NamelistDocuments where
  name : String
  defaults : List Path := []
  declarations : List Path := []
deriving DecidableEq, Repr

namespace NamelistDocuments

/-- The source set of a namelist below a root. Declarations come before defaults. -/
def sourceSet (n : NamelistDocuments) (root : Path) (version : SourceVersion) : SourceSet :=
  { namelist := n.name
    version
    documents :=
      (n.declarations.map fun p => ⟨.declarations, .file (root.join p)⟩) ++
        n.defaults.map fun p => ⟨.defaults, .file (root.join p)⟩ }

end NamelistDocuments

namespace Layout

/-- The first numbered release that declares the controls in free form. -/
def freeFormSince : Nat := 7380

/-- Whether a release declares the controls in free form. Releases without a number do. -/
def isFreeForm (version : SourceVersion) : Bool :=
  match version.number? with
  | some n => freeFormSince ≤ n
  | none => true

/-- The document of the controls that changed its name when it became free-form. -/
def controlsDocument (version : SourceVersion) : Path :=
  if isFreeForm version then .ofText "star/private/ctrls_io.f90" else .ofText "star/private/ctrls_io.f"

def namelists (version : SourceVersion) : List NamelistDocuments :=
  [{ name := "star_job"
     defaults := [.ofText "star/defaults/star_job.defaults"]
     declarations := [.ofText "star/private/star_job_controls.inc"] },
    { name := "controls"
      defaults := [.ofText "star/defaults/controls.defaults"]
      declarations := [.ofText "star/private/star_controls.inc", controlsDocument version] },
    { name := "pgstar"
      defaults := [.ofText "star/defaults/pgstar.defaults"]
      declarations := [.ofText "star/private/pgstar_controls.inc"] }]

/-- The file below the root that tells the version of a source tree. -/
def versionFile : Path := .ofText "data/version_number"

end Layout

end NamelistCatalog
