import NamelistCatalog.Artifact
import NamelistCatalog.Catalog
import NamelistCatalog.Extraction
import NamelistCatalog.Merge
import NamelistCatalog.Build.Error

namespace NamelistCatalog

/-- What a build did. -/
structure BuildReport where
  /-- Where the catalog was published, if it was. -/
  artifact : Option Path := none
  /-- Where the previous artifact is kept, if it is. -/
  backup : Option Path := none
  /-- The version that the catalog documents. -/
  sourceVersion : SourceVersion
  /-- The number of candidates. -/
  extracted : Nat
  /-- The number of malformed records. -/
  skipped : Nat
  /-- The number of candidates that gave way to another one. -/
  superseded : Nat
  /-- The number of entries of the catalog. -/
  entries : Nat
  /-- The warnings of the extraction, then one for each decision of the merge. -/
  warnings : List Warning
deriving DecidableEq, Repr

namespace BuildReport

def display (r : BuildReport) : String :=
  toString r.entries ++ " entries (version " ++ r.sourceVersion.text ++ "): " ++
    toString r.extracted ++ " extracted, " ++ toString r.skipped ++ " skipped, " ++
    toString r.superseded ++ " superseded, " ++ toString r.warnings.length ++ " warnings" ++
    (r.artifact.map fun path => " -> " ++ path.text).getD ""

end BuildReport

namespace Override

def warning (o : Override) : Warning :=
  { kind := .superseded
    origin := o.supersededOrigin
    name := some o.supersededName
    detail :=
      "version " ++ o.supersededVersion.text ++ " replaced by version " ++ o.keptVersion.text ++
        " from " ++ o.keptOrigin }

end Override

/-- What is to be built, and where it is to go. -/
structure BuildPlan where
  sets : List SourceSet := []
  policy : MergePolicy := .versionThenRecency
  /-- Where the catalog is to be published, if that is given. -/
  output : Option Path := none
  /-- Whether the previous artifact is to be kept. -/
  keepPrevious : Bool := false
deriving DecidableEq, Repr

namespace Build

/-- Where artifacts lie below the root of a source tree. -/
def defaultArtifact : Path := .ofText "data/mesa.db"

/-- The root of the source tree that the environment variable `MESA_DIR` names; an empty value names
none. -/
def rootOfEnvironment (mesaDir : Option String) : Option Path :=
  (mesaDir.filter fun value => !value.isEmpty).map Path.ofText

/-- Where artifacts lie when nothing else is said. -/
def defaultArtifactPath (mesaDir : Option String) : Except BuildError Path :=
  match rootOfEnvironment mesaDir with
  | some root => .ok (root.join defaultArtifact)
  | none => .error .missingSourceRoot

/-- The catalog of these sets and the report on it. -/
def ofLoaded (policy : MergePolicy) (generatedAt : String) (sets : List LoadedSet) :
    Except BuildError (Catalog × BuildReport) :=
  let (candidates, summary) := (Extraction.ofSets sets).drain
  let merge := Merge.ofCandidates policy candidates
  if merge.entries.isEmpty then .error .noEntries
  else
    match Catalog.build generatedAt merge.entries with
    | .error problem => .error (.invalid problem)
    | .ok c =>
        .ok (c,
          { sourceVersion := c.info.sourceVersion
            extracted := candidates.length
            skipped := summary.skipped
            superseded := merge.overrides.length
            entries := c.size
            warnings := summary.warnings ++ merge.overrides.map Override.warning })

variable {m : Type → Type} [Monad m] [Disk m]

/-- Reads a document. Bytes that are no UTF-8 show as replacement characters. -/
def loadDocument (d : SourceDocument) : m LoadedDocument := do
  match d.origin with
  | .text label text => pure ⟨d.kind, label, .ok text.toList⟩
  | .file path =>
      let bytes ← Disk.read path
      pure ⟨d.kind, path.text, bytes.map Text.Utf8.decodeLossy⟩

def loadSet (s : SourceSet) : m LoadedSet := do
  let documents ← s.documents.mapM loadDocument
  pure { namelist := s.namelist, version := s.version, documents }

def inMemory (plan : BuildPlan) (generatedAt : String) :
    ExceptT BuildError m (Catalog × BuildReport) := do
  let sets ← (plan.sets.mapM loadSet : m _)
  ExceptT.mk (pure (ofLoaded plan.policy generatedAt sets))

/-- Builds a catalog and publishes it where the plan says, and else below the root of the source
tree. -/
def publish [Storage m] (plan : BuildPlan) (mesaDir : Option String) (generatedAt : String) :
    ExceptT BuildError m BuildReport := do
  let output ← ExceptT.mk (pure ((plan.output.map Except.ok).getD (defaultArtifactPath mesaDir)))
  let (c, report) ← inMemory plan generatedAt
  let published ← (Artifact.publish output c plan.keepPrevious).adapt BuildError.store
  pure { report with artifact := some published.path, backup := published.backup }

end Build

end NamelistCatalog
