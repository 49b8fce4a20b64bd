import NamelistCatalog.Files.Disk
import NamelistCatalog.Store.Storage

/-!
A storage engine that keeps a store as text, in place of pages. A store is written as a list of fields,
one to a line; in a field a backslash and a line feed are written as two characters each. A file of no
more than one byte is a store in which nothing was written.
-/

namespace NamelistCatalog.Store.Image

def escape : List Char → List Char
  | [] => []
  | '\\' :: rest => '\\' :: '\\' :: escape rest
  | '\n' :: rest => '\\' :: 'n' :: escape rest
  | c :: rest => c :: escape rest

def unescape? : List Char → Option (List Char)
  | [] => some []
  | ['\\'] => none
  | '\\' :: '\\' :: rest => (unescape? rest).map ('\\' :: ·)
  | '\\' :: 'n' :: rest => (unescape? rest).map ('\n' :: ·)
  | c :: rest => if c = '\\' then none else (unescape? rest).map (c :: ·)

def nat? (digits : List Char) : Option Nat :=
  if !digits.isEmpty && digits.all Char.isDigit then some (Text.decimalValue digits) else none

/-- The whole number that a field stands for. -/
def int? : List Char → Option Int
  | '-' :: digits => (nat? digits).map fun n => -(n : Int)
  | digits => (nat? digits).map Int.ofNat

/-- A number cell as a field, with a sign that tells its kind. -/
def ofNumberCell : NumberCell → String
  | .number n => "#" ++ toString n
  | .real s => "~" ++ s
  | .text s => "=" ++ s

def numberCell? (field : String) : Option NumberCell :=
  match field.toList with
  | '#' :: digits => (int? digits).map .number
  | '~' :: text => some (.real (String.ofList text))
  | '=' :: text => some (.text (String.ofList text))
  | _ => none

/-- An optional field, with a sign that tells whether there is one. -/
def ofOption : Option String → String
  | none => "-"
  | some s => "+" ++ s

/-- The optional field that a field stands for. -/
def option? (field : String) : Option (Option String) :=
  match field.toList with
  | ['-'] => some none
  | '+' :: text => some (some (String.ofList text))
  | _ => none

def rowFields (r : EntryRow) : List String :=
  [toString r.id, r.name, r.foldedName, r.namelist, r.valueType, ofNumberCell r.dim,
    ofOption (r.ord.map ofNumberCell), ofOption r.defaultValue, r.summary, r.doc, r.version,
    r.origin]

/-- The row that the first fields stand for, and the fields after them. -/
def row? : List String → Option (EntryRow × List String)
  | id :: name :: foldedName :: namelist :: valueType :: dim :: ord :: defaultValue :: summary ::
      doc :: version :: origin :: rest => do
      let id ← nat? id.toList
      let dim ← numberCell? dim
      let ord ← (← option? ord).mapM numberCell?
      let defaultValue ← option? defaultValue
      pure
        ({ id, name, foldedName, namelist, valueType, dim, ord, defaultValue, summary, doc, version
           origin },
          rest)
  | _ => none

/-- The pair that the first fields stand for, and the fields after them. -/
def pair? : List String → Option ((String × String) × List String)
  | key :: value :: rest => some ((key, value), rest)
  | _ => none

/-- The fields of a table: whether it is there, how many rows it has, and their fields. -/
def tableFields {α : Type} (fields : α → List String) : Option (List α) → List String
  | none => ["-"]
  | some rows => ("+" ++ toString rows.length) :: rows.flatMap fields

/-- This many rows, read one after the other. -/
def rows? {α : Type} (row? : List String → Option (α × List String)) :
    Nat → List String → Option (List α × List String)
  | 0, fields => some ([], fields)
  | n + 1, fields => do
      let (row, fields) ← row? fields
      let (rows, fields) ← rows? row? n fields
      pure (row :: rows, fields)

/-- The table that the first fields stand for, and the fields after them. -/
def table? {α : Type} (row? : List String → Option (α × List String)) :
    List String → Option (Option (List α) × List String)
  | [] => none
  | field :: fields => do
      match ← option? field with
      | none => pure (none, fields)
      | some count =>
          let (rows, fields) ← rows? row? (← nat? count.toList) fields
          pure (some rows, fields)

def signature : String := "namelist catalog, layout of fields 1"

def fields (s : Store) : List String :=
  signature :: ofNumberCell (.number s.userVersion) ::
    (tableFields rowFields s.entries ++ tableFields (fun p => [p.1, p.2]) s.metadata)

def ofFields? : List String → Option Store
  | first :: version :: rest => do
      let .number userVersion ← numberCell? version
        | none
      let (entries, rest) ← table? row? rest
      let (metadata, rest) ← table? pair? rest
      if first == signature && rest.isEmpty then pure { userVersion, entries, metadata } else none
  | _ => none

end NamelistCatalog.Store.Image

namespace NamelistCatalog

namespace Store

/-- The bytes of a file that holds the store. -/
def image (s : Store) : List UInt8 :=
  Text.Utf8.encode (String.ofList (Text.joinWith ['\n']
    ((Image.fields s).map fun field => Image.escape field.toList)))

def ofImage? (bytes : List UInt8) : Option Store :=
  if bytes.length ≤ 1 then some {}
  else do
    let text ← Text.Utf8.decode? bytes
    let fields ← (Text.fields (· == '\n') text).mapM Image.unescape?
    Image.ofFields? (fields.map String.ofList)

end Store

namespace TextEngine

variable {m : Type → Type} [Monad m] [Disk m]

/-- The bytes of a file, if it is there and can be read. -/
def bytes? (p : Path) : m (Option (List UInt8)) := do
  match ← Disk.read p with
  | .ok bytes => pure (some bytes)
  | .error _ => pure none

/-- The store in a file, with what lies beside it: a journal that was not rolled back bars it, and a
log that holds a later store goes before it. -/
def loadFile (p : Path) : m (Except String Store) := do
  match ← bytes? p with
  | none => pure (.error "unable to open database file")
  | some bytes =>
      let journal ← bytes? (p.beside "-journal")
      let log ← bytes? (p.beside "-wal")
      if journal.any fun rest => rest.head?.any (· != 0) then
        pure (.error "attempt to write a readonly database")
      else
        match (log.filter fun rest => !rest.isEmpty).bind Store.ofImage? with
        | some s => pure (.ok s)
        | none => pure ((Store.ofImage? bytes).elim (.error "file is not a database") .ok)

def saveFile (p : Path) (s : Store) : m (Except String Unit) := do
  match ← Disk.write p s.image with
  | .ok () => pure (.ok ())
  | .error _ => pure (.error "disk I/O error")

/-- The file that a path is opened as. One name stands for an empty store in memory, and one prefix for
a URI. -/
def fileOf? (p : Path) : Option Path :=
  if p = .ofText ":memory:" then none
  else if (Text.Utf8.encode "file:").isPrefixOf p.bytes then some ⟨p.bytes.drop "file:".length⟩
  else some p

@[reducible] def storage : Storage m where
  save p s :=
    match fileOf? p with
    | none => pure (.ok ())
    | some file => saveFile file s
  load p :=
    match fileOf? p with
    | none => pure (.ok {})
    | some file => loadFile file

end TextEngine

end NamelistCatalog
