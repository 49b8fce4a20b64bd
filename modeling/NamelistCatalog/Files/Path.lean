import NamelistCatalog.Text.Blank
import NamelistCatalog.Text.Utf8

namespace NamelistCatalog

/-- A path as written. -/
structure Path where
  bytes : List UInt8
deriving DecidableEq, Repr, Inhabited

abbrev Segment := List UInt8

namespace Path

def ofText (s : String) : Path := ⟨Text.Utf8.encode s⟩

/-- Bytes as they are shown: a replacement character stands for each part that is no UTF-8. -/
def shown (bytes : List UInt8) : String := String.ofList (Text.Utf8.decodeLossy bytes)

def text (p : Path) : String := shown p.bytes

def isText (p : Path) : Bool := (Text.Utf8.decode? p.bytes).isSome

def slash : UInt8 := 0x2F

def dot : UInt8 := 0x2E

/-- What a path starts at: the root, an explicit current directory, or neither. -/
inductive Start where
  | root
  | here
  | none
deriving DecidableEq, Repr

/-- The segments between slashes, after the start. -/
def split (p : Path) : Start × List Segment :=
  match Text.fields (· == slash) p.bytes with
  | [] => (.none, [])
  | [[]] => (.none, [])
  | [] :: body => (.root, body)
  | first :: body => if first = [dot] then (.here, body) else (.none, first :: body)

/-- The path with this start and these segments. -/
def ofSplit : Start → List Segment → Path
  | .root, body => ⟨slash :: Text.joinWith [slash] body⟩
  | .here, body => ⟨Text.joinWith [slash] ([dot] :: body)⟩
  | .none, body => ⟨Text.joinWith [slash] body⟩

/-- A segment that leads nowhere: an empty one, or a dot. -/
def isIdle (segment : Segment) : Bool := segment.isEmpty || segment == [dot]

/-- A segment that leads to the directory above. -/
def isUp (segment : Segment) : Bool := segment == [dot, dot]

/-- The segments without the idle ones at the end. -/
def dropIdleEnd (body : List Segment) : List Segment := Text.dropEndWhile isIdle body

/-- The path up to its last component. The root and the empty path have none. -/
def parent? (p : Path) : Option Path :=
  match p.split with
  | (start, body) =>
      match dropIdleEnd body with
      | [] => if start = .here then some ⟨[]⟩ else none
      | last :: rest => some (ofSplit start (dropIdleEnd ((last :: rest).dropLast)))

/-- The last component, unless it leads to a parent directory. -/
def fileName? (p : Path) : Option Segment :=
  match (dropIdleEnd p.split.2).getLast? with
  | some segment => if isUp segment then none else some segment
  | none => none

/-- The file name cut at its last point, unless that is missing or in front. -/
def stemAndExtension {α : Type} [BEq α] (point : α) (name : List α) : List α × Option (List α) :=
  let extension := (name.reverse.takeWhile (· != point)).reverse
  let before := name.take (name.length - extension.length - 1)
  if before.isEmpty then (name, none) else (before, some extension)

/-- One path below another. A path that starts at the root stays as it is. -/
def join (base p : Path) : Path :=
  if p.bytes.head? == some slash || base.bytes.isEmpty then p
  else if base.bytes.getLast? == some slash then ⟨base.bytes ++ p.bytes⟩
  else ⟨base.bytes ++ slash :: p.bytes⟩

/-- The path with another file name, which is put below a path that has none. -/
def withFileName (p : Path) (name : Segment) : Path :=
  let base := if p.fileName?.isSome then p.parent?.getD p else p
  base.join ⟨name⟩

/-- The directory in which a file at this path lies. -/
def directory (p : Path) : Path :=
  match p.parent? with
  | some dir => if dir.bytes.isEmpty then ofText "." else dir
  | none => ofText "."

/-- The name `stem_old.extension` for a file name, both parts as they are shown. -/
def backupName (name : Segment) : String :=
  match stemAndExtension dot name with
  | (stem, some extension) => shown stem ++ "_old." ++ shown extension
  | (stem, none) => shown stem ++ "_old"

/-- Where the file at this path is kept when another takes its place. -/
def backup (p : Path) : Path :=
  p.withFileName (Text.Utf8.encode (backupName (p.fileName?.getD [])))

/-- The path of a file that lies beside the one at this path and has these letters more at the end of
its name. -/
def beside (p : Path) (suffix : String) : Path := ⟨p.bytes ++ Text.Utf8.encode suffix⟩

def temporaryName (n : Nat) : String := ".catalog-" ++ toString n ++ ".tmp"

/-- Paths for a temporary file in the directory of a path: this many, without those that have the
name of the path or of its backup. -/
def temporaries (p : Path) (count : Nat) : List Path :=
  let names := ((List.range count).map fun n => Text.Utf8.encode (temporaryName n)).filter fun name =>
    p.fileName? != some name && p.backup.fileName? != some name
  names.map fun name => p.directory.join ⟨name⟩

end Path

end NamelistCatalog
