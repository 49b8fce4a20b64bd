import NamelistCatalog.Build
import NamelistCatalog.Layout

namespace NamelistCatalog

/-- The configuration of a build. -/
structure Config where
  /-- The root of the source tree; the environment tells it when it is absent. -/
  sourceRoot : Option Path := none
  /-- The version of the source tree; a file in it tells it when it is absent. -/
  version : Option String := none
  /-- The namelists; none stand for those of the standard layout. -/
  namelists : List NamelistDocuments := []
  mergePolicy : MergePolicy := .versionThenRecency
  /-- Where the artifact goes; it goes below the root when this is absent. -/
  artifact : Option Path := none
  /-- Whether the previous artifact is kept. -/
  backupPrevious : Bool := false
deriving DecidableEq, Repr, Inhabited

namespace Config

/-- What is wrong with the first namelist at which something is, when the folded names in `seen` are
taken. -/
def checkNamelists (seen : List String) : List NamelistDocuments → Option ConfigProblem
  | [] => none
  | n :: rest =>
      if !Name.isValid n.name then some (.invalidNamelistName n.name)
      else if seen.contains (Name.fold n.name) then some (.repeatedNamelist n.name)
      else if n.defaults.isEmpty && n.declarations.isEmpty then some (.noDocuments n.name)
      else checkNamelists (Name.fold n.name :: seen) rest

/-- What is wrong with a configuration, if anything is. -/
def check (c : Config) : Option ConfigProblem :=
  match checkNamelists [] c.namelists with
  | some problem => some problem
  | none =>
      if c.version.any fun v => Text.isBlankText v.toList then some .emptyVersion else none

/-- The configuration, if nothing is wrong with it. -/
def validated (c : Config) : Except BuildError Config :=
  match c.check with
  | some problem => .error (.config problem)
  | none => .ok c

def root (c : Config) (mesaDir : Option String) : Except BuildError Path :=
  match c.sourceRoot.or (Build.rootOfEnvironment mesaDir) with
  | some root => .ok root
  | none => .error .missingSourceRoot

def artifactPath (c : Config) (mesaDir : Option String) : Except BuildError Path :=
  match c.artifact with
  | some path => .ok path
  | none => (c.root mesaDir).map fun root => root.join Build.defaultArtifact

/-- The version that a text tells, which must not be blank. -/
def versionOf (root : Path) (text : String) : Except BuildError SourceVersion :=
  let version := SourceVersion.ofString text
  if version.text.isEmpty then .error (.config (.emptyVersionFile (root.join Layout.versionFile)))
  else .ok version

/-- The source sets of a version of the source tree. -/
def setsOf (c : Config) (root : Path) (version : SourceVersion) : List SourceSet :=
  let namelists := if c.namelists.isEmpty then Layout.namelists version else c.namelists
  namelists.map fun n => n.sourceSet root version

variable {m : Type → Type} [Monad m] [Disk m]

def readText (path : Path) : ExceptT BuildError m String :=
  ExceptT.mk do
    match ← Disk.read path with
    | .error fault => pure (.error (.io fault))
    | .ok bytes =>
        match Text.Utf8.decode? bytes with
        | some text => pure (.ok (String.ofList text))
        | none => pure (.error (.io .invalidUtf8))

/-- The version of the source tree at a root. -/
def sourceVersion (c : Config) (root : Path) : ExceptT BuildError m SourceVersion := do
  let text ←
    match c.version with
    | some text => pure text
    | none => readText (root.join Layout.versionFile)
  ExceptT.mk (pure (versionOf root text))

def sourceSets (c : Config) (mesaDir : Option String) : ExceptT BuildError m (List SourceSet) := do
  let root ← ExceptT.mk (pure (c.root mesaDir))
  let version ← c.sourceVersion root
  pure (c.setsOf root version)

/-- The plan of the build that the configuration describes. -/
def plan (c : Config) (mesaDir : Option String) : ExceptT BuildError m BuildPlan := do
  let _ ← ExceptT.mk (pure c.validated)
  let sets ← c.sourceSets mesaDir
  let output ← ExceptT.mk (pure (c.artifactPath mesaDir))
  pure { sets, policy := c.mergePolicy, output := some output, keepPrevious := c.backupPrevious }

end Config

end NamelistCatalog
