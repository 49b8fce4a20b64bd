import NamelistCatalog.Catalog.Query
import NamelistCatalog.CommandLine
import NamelistCatalog.Config.Yaml
import NamelistCatalog.Json

namespace NamelistCatalog

/-- What a run leaves behind. -/
structure Outcome where
  exit : UInt8 := 0
  stdout : String := ""
  stderr : String := ""
deriving DecidableEq, Repr

/-- What a run depends on besides its arguments and the files. -/
structure Surroundings where
  /-- The value of the environment variable `MESA_DIR`. -/
  mesaDir : Option String := none
  /-- The time that builds record. -/
  time : String := ""
deriving DecidableEq, Repr

/-- Why a command fails. -/
inductive CommandError where
  | query (e : QueryError)
  | build (e : BuildError)
  /-- A configuration file cannot be used. -/
  | config (path : Path) (e : BuildError)
deriving DecidableEq, Repr

namespace CommandError

/-- The outcome of a command that fails: questions without an answer end with status 2, and all else
with status 1. -/
def outcome : CommandError → Outcome
  | .query (.notFound name) => { exit := 2, stderr := "not found: " ++ name ++ "\n" }
  | .query .emptyQuery =>
      { exit := 2, stderr := "usage: " ++ QueryError.emptyQuery.message ++ "\n" }
  | .build e => { exit := 1, stderr := "error: " ++ e.message ++ "\n" }
  | .config path e =>
      { exit := 1
        stderr := "error: Failed to load config '" ++ path.text ++ "': " ++ e.message ++ "\n" }

end CommandError

def DefaultValue.json : DefaultValue → Json
  | .unset => .text "unset"
  | .literal text => .object [("literal", .text text)]

def Entry.json (e : Entry) : Json :=
  .object
    ([("name", .text e.name), ("summary", .text e.summary), ("doc", .text e.doc),
        ("default", e.defaultValue.json), ("version", .text e.version.text),
        ("namelist", .text e.namelist), ("value_type", .text e.valueType.label),
        ("dim", .number e.dim.toNat)] ++
      Json.optional "order" (e.order.map fun n => .number n.toNat) ++
      [("origin", .text e.origin)])

def CatalogVersion.json (v : CatalogVersion) : Json :=
  .object [("schema", .number v.schema.toNat), ("source", .text v.source.text)]

def Warning.json (w : Warning) : Json :=
  .object
    ([("kind", .text w.kind.label), ("origin", .text w.origin)] ++
      Json.optional "line" (w.line.map .number) ++ Json.optional "name" (w.name.map .text) ++
      [("detail", .text w.detail)])

def BuildReport.json (r : BuildReport) : Json :=
  .object
    (Json.optional "artifact" (r.artifact.map fun p => .text p.text) ++
      Json.optional "backup" (r.backup.map fun p => .text p.text) ++
      [("source_version", .text r.sourceVersion.text), ("extracted", .number r.extracted),
        ("skipped", .number r.skipped), ("superseded", .number r.superseded),
        ("entries", .number r.entries), ("warnings", .array (r.warnings.map Warning.json))])

def Entry.labelled (label value : String) : String :=
  label ++ String.ofList (List.replicate (10 - label.length) ' ') ++ value ++ "\n"

/-- All fields of an entry, one to a line, and its documentation. -/
def Entry.render (e : Entry) : String :=
  labelled "name" e.name ++ labelled "namelist" e.namelist ++ labelled "type" e.valueType.label ++
    labelled "dim" (toString e.dim.toNat) ++ labelled "default" e.defaultValue.display ++
    labelled "version" e.version.text ++ labelled "origin" e.origin ++
    (e.order.map fun n => labelled "order" (toString n.toNat)).getD "" ++
    labelled "summary" e.summary ++ (if e.doc.isEmpty then "" else "\n" ++ e.doc ++ "\n")

def renderNames (json : Bool) (names : List String) : String :=
  if json then (Json.array (names.map .text)).display ++ "\n"
  else String.join (names.map fun name => name ++ "\n")

def BuildReport.render (json : Bool) (r : BuildReport) : String :=
  if json then r.json.display ++ "\n"
  else
    r.display ++ "\n" ++
      (r.backup.map fun p => "previous artifact kept at " ++ p.text ++ "\n").getD ""

namespace Catalog

/-- What a command other than a build prints about a catalog. -/
def answer (c : Catalog) (json : Bool) : Command → Except QueryError String
  | .doc name => (c.doc name).map (· ++ "\n")
  | .defaultValue name => (c.defaultText name).map (· ++ "\n")
  | .summary name => (c.summary name).map (· ++ "\n")
  | .entry name =>
      (c.entry name).map fun e => if json then e.json.display ++ "\n" else e.render
  | .version =>
      .ok ((if json then c.version.json.display else c.version.display) ++ "\n")
  | .search patterns true => (c.namesFromAny patterns).map (renderNames json)
  | .search patterns false => (c.searchNames patterns).map (renderNames json)
  | .searchDocs patterns => (c.searchDocs patterns).map (renderNames json)
  | .make _ => .ok ""

end Catalog

namespace MakeOptions

/-- A configuration with what is given on the command line in place of what it says. -/
def apply (o : MakeOptions) (database : Option Path) (c : Config) : Config :=
  { c with
    sourceRoot := o.source.or c.sourceRoot
    artifact := (o.output.or database).or c.artifact
    mergePolicy := o.policy.getD c.mergePolicy
    backupPrevious := o.keepPrevious || c.backupPrevious }

end MakeOptions

namespace CommandLine

variable {m : Type → Type} [Monad m] [Disk m]

def openCatalog [Storage m] (s : Surroundings) (database : Option Path) : ExceptT BuildError m Catalog := do
  let path ← ExceptT.mk (pure ((database.map Except.ok).getD (Build.defaultArtifactPath s.mesaDir)))
  (Artifact.read path).adapt BuildError.store

/-- The configuration that a build starts from. -/
def configOf (o : MakeOptions) : ExceptT CommandError m Config :=
  match o.config with
  | some path => (Config.load path).adapt (CommandError.config path)
  | none => pure {}

def make [Storage m] (s : Surroundings) (database : Option Path) (o : MakeOptions) :
    ExceptT CommandError m BuildReport := do
  let config ← configOf o
  let build : ExceptT BuildError m BuildReport := do
    let plan ← (o.apply database config).plan s.mesaDir
    Build.publish plan s.mesaDir s.time
  build.adapt CommandError.build

def run [Storage m] (s : Surroundings) (i : Invocation) : ExceptT CommandError m String := do
  match i.command with
  | .make options => (BuildReport.render i.json) <$> make s i.database options
  | command =>
      let c ← (openCatalog s i.database).adapt CommandError.build
      ExceptT.mk (pure ((c.answer i.json command).mapError CommandError.query))

def usage : String :=
  "usage: nldoc [--db <path>] [--json] [-v] <command>\n\n" ++
  "commands:\n" ++
  "  doc <name>          print the documentation of a parameter\n" ++
  "  default <name>      print the default value of a parameter\n" ++
  "  summary <name>      print the summary of a parameter\n" ++
  "  show <name>         print every field of a parameter\n" ++
  "  version             print the versions of the database\n" ++
  "  search [--prefix] <pattern>...   list parameters by name\n" ++
  "  searchd <pattern>...             list parameters by documentation\n" ++
  "  makedb [<source>] [--output <path>] [--config <path>] [--merge-policy <policy>]\n" ++
  "         [--backup]\n" ++
  "                      build the database from a source tree\n"

def programVersion : String := "nldoc 0.1.0\n"

def outcome [Storage m] (s : Surroundings) (words : List String) : m Outcome := do
  match parse? words with
  | none => pure { exit := 2, stderr := "error: invalid arguments\n\n" ++ usage }
  | some .help => pure { stdout := usage }
  | some .programVersion => pure { stdout := programVersion }
  | some (.run i) =>
      match ← (run s i).run with
      | .ok text => pure { stdout := text }
      | .error e => pure e.outcome

end CommandLine

end NamelistCatalog
