import NamelistCatalog.Config
import NamelistCatalog.Yaml.Reader
import NamelistCatalog.Yaml.Writer

namespace NamelistCatalog

namespace Yaml.Node

/-- The text of a scalar, however it was written. -/
def text? : Node → Option String
  | .scalar text _ => some (String.ofList text)
  | _ => none

/-- The text of a scalar, and `none` for a plain scalar that stands for nothing. -/
def optionalText? : Node → Option (Option String)
  | .scalar text isPlain =>
      if isPlain && isNothing text then some none else some (some (String.ofList text))
  | _ => none

def truth? : Node → Option Bool
  | .scalar text true => truthValue? text
  | _ => none

/-- The items of a sequence; nothing at all has no items. -/
def items? : Node → Option (List Node)
  | .sequence items => some items
  | .scalar [] true => some []
  | _ => none

/-- The pairs of a mapping, whose keys are scalars; nothing at all has no pairs. -/
def pairs? : Node → Option (List (String × Node))
  | .mapping pairs => pairs.mapM fun p => p.1.text?.map fun key => (key, p.2)
  | .scalar [] true => some []
  | _ => none

end Yaml.Node

namespace Yaml

def areDistinct (known : List String) (pairs : List (String × Node)) : Bool :=
  known.all fun key => (pairs.filter fun p => p.1 == key).length ≤ 1

/-- The value of a key, read by `read`, and a default when the key is missing. -/
def field {α : Type} (pairs : List (String × Node)) (key : String) (default : α)
    (read : Node → Option α) : Option α :=
  match pairs.lookup key with
  | none => some default
  | some node => read node

def paths? (node : Node) : Option (List Path) := do
  (← node.items?).mapM fun item => item.text?.map Path.ofText

end Yaml

namespace NamelistDocuments

/-- The documents of a namelist that a node describes. -/
def ofYaml? (node : Yaml.Node) : Option NamelistDocuments := do
  let pairs ← node.pairs?
  if !Yaml.areDistinct ["name", "defaults", "declarations"] pairs then none
  else
    let name ← (← pairs.lookup "name").text?
    let defaults ← Yaml.field pairs "defaults" [] Yaml.paths?
    let declarations ← Yaml.field pairs "declarations" [] Yaml.paths?
    pure { name, defaults, declarations }

end NamelistDocuments

namespace Config

def keys : List String :=
  ["source_root", "version", "namelists", "merge_policy", "artifact", "backup_previous"]

def ofYaml? (node : Yaml.Node) : Option Config := do
  let pairs ← node.pairs?
  if !Yaml.areDistinct keys pairs then none
  else
    let sourceRoot ← Yaml.field pairs "source_root" none Yaml.Node.optionalText?
    let version ← Yaml.field pairs "version" none Yaml.Node.optionalText?
    let namelists ← Yaml.field pairs "namelists" [] fun n => do
      (← n.items?).mapM NamelistDocuments.ofYaml?
    let mergePolicy ← Yaml.field pairs "merge_policy" .versionThenRecency fun n => do
      MergePolicy.ofLabel? (← n.text?)
    let artifact ← Yaml.field pairs "artifact" none Yaml.Node.optionalText?
    let backupPrevious ← Yaml.field pairs "backup_previous" false Yaml.Node.truth?
    pure
      { sourceRoot := sourceRoot.map Path.ofText
        version
        namelists
        mergePolicy
        artifact := artifact.map Path.ofText
        backupPrevious }

/-- The configuration that a YAML document describes. -/
def parse? (text : List Char) : Option Config := do ofYaml? (← Yaml.read text)

def line (indent : String) (key : String) (value : String) : String :=
  indent ++ key ++ ": " ++ String.ofList (Yaml.write (indent.length + 2) value.toList) ++ "\n"

def pathLines (key : String) (paths : List Path) : String :=
  if paths.isEmpty then "  " ++ key ++ ": []\n"
  else
    "  " ++ key ++ ":\n" ++
      String.join (paths.map fun p => "  - " ++ String.ofList (Yaml.write 4 p.text.toList) ++ "\n")

def namelistLines (n : NamelistDocuments) : String :=
  "- name: " ++ String.ofList (Yaml.write 4 n.name.toList) ++ "\n" ++
    pathLines "defaults" n.defaults ++ pathLines "declarations" n.declarations

/-- The configuration as a YAML document. Absent values and an empty list of namelists are left
out. -/
def render (c : Config) : String :=
  (c.sourceRoot.map fun p => line "" "source_root" p.text).getD "" ++
    (c.version.map fun v => line "" "version" v).getD "" ++
    (if c.namelists.isEmpty then ""
      else "namelists:\n" ++ String.join (c.namelists.map namelistLines)) ++
    line "" "merge_policy" c.mergePolicy.label ++
    (c.artifact.map fun p => line "" "artifact" p.text).getD "" ++
    "backup_previous: " ++ (if c.backupPrevious then "true" else "false") ++ "\n"

variable {m : Type → Type} [Monad m] [Disk m]

/-- Reads and checks the configuration in a file. A file that is there and cannot be read as text is
no configuration. -/
def load (path : Path) : ExceptT BuildError m Config :=
  ExceptT.mk do
    match ← Disk.read path with
    | .error .isADirectory => pure (.error .yaml)
    | .error fault => pure (.error (.io fault))
    | .ok bytes =>
        match (Text.Utf8.decode? bytes).bind parse? with
        | none => pure (.error .yaml)
        | some c => pure c.validated

def paths (c : Config) : List Path :=
  c.sourceRoot.toList ++ c.artifact.toList ++ c.namelists.flatMap fun n => n.defaults ++ n.declarations

/-- Writes a configuration to a file. One with a path that is no text leaves an empty file. -/
def save (c : Config) (path : Path) : ExceptT BuildError m Unit :=
  ExceptT.mk do
    let isText := c.paths.all Path.isText
    match ← Disk.write path (if isText then Text.Utf8.encode c.render else []) with
    | .ok () => pure (if isText then .ok () else .error .yaml)
    | .error fault => pure (.error (.io fault))

end Config

end NamelistCatalog
