import NamelistCatalog.Clock
import NamelistCatalog.CommandLine.Run
import NamelistCatalog.Store.Image
import Std.Time.DateTime.Timestamp

namespace NamelistCatalog

def IoFault.ofError (e : IO.Error) : IoFault :=
  match e with
  | .noFileOrDirectory _ _ _ => .notFound
  | .alreadyExists _ _ _ => .alreadyExists
  | .inappropriateType _ code _ => if code = 21 then .isADirectory else .notADirectory
  | .resourceBusy _ _ => .busy
  | e => .other (toString e)

namespace SystemDisk

/-- A step of the system, with its failure as a value. -/
def attempt {α : Type} (step : IO α) : IO (Except IoFault α) := do
  match ← step.toBaseIO with
  | .ok a => pure (.ok a)
  | .error e => pure (.error (IoFault.ofError e))

/-- A step of the system on a path, of which the system can only be told as text. -/
def attemptAt {α : Type} (path : Path) (step : String → IO α) : IO (Except IoFault α) :=
  if path.isText then attempt (step path.text)
  else pure (.error (.other "the path is no text"))

def kindOf (path : String) : IO FileKind := do
  let place := (← IO.currentDir) / path
  match (← place.metadata).type with
  | .dir => pure .directory
  | _ => pure .file

/-- How many names for a temporary file are tried. -/
def attempts : Nat := 1000

/-- Makes an empty file under the first of these names that is free. -/
def createFirst : List Path → IO (Except IoFault Path)
  | [] => pure (.error .alreadyExists)
  | path :: rest => do
      match ← attemptAt path fun name => IO.FS.Handle.mk name .writeNew with
      | .ok _ => pure (.ok path)
      | .error .alreadyExists => createFirst rest
      | .error fault => pure (.error fault)

instance : Disk IO where
  kind path := attemptAt path kindOf
  read path := attemptAt path fun name => do pure (← IO.FS.readBinFile name).toList
  write path bytes := attemptAt path fun name => IO.FS.writeBinFile name ⟨bytes.toArray⟩
  makeDirectories path := attemptAt path fun name => IO.FS.createDirAll name
  createTemporary path := createFirst (path.temporaries attempts)
  sync path := attemptAt path fun name => do let _ ← kindOf name
  copy source target := do
    match ← attemptAt source fun name => IO.FS.Handle.mk name .read with
    | .error fault => pure (.error fault)
    | .ok opened => attemptAt target fun name => do
        let emptied ← IO.FS.Handle.mk name .write
        emptied.write (← opened.readBinToEnd)
  rename source target := do
    match source.isText with
    | true => attemptAt target fun name => IO.FS.rename source.text name
    | false => pure (.error (.other "the path is no text"))
  remove path := do let _ ← attemptAt path fun name => IO.FS.removeFile name

instance : Storage IO := TextEngine.storage

end SystemDisk

/-- Runs a command line on the files of the system, prints what it prints and gives its exit
status. -/
def runProgram (words : List String) : IO UInt32 := do
  let mesaDir ← IO.getEnv "MESA_DIR"
  let now ← Std.Time.Timestamp.now
  let time := Clock.display now.toSecondsSinceUnixEpoch.val.toNat
  let outcome ← CommandLine.outcome (m := IO) { mesaDir, time } words
  (← IO.getStdout).putStr outcome.stdout
  (← IO.getStderr).putStr outcome.stderr
  pure outcome.exit.toUInt32

end NamelistCatalog

def main (words : List String) : IO UInt32 := NamelistCatalog.runProgram words
