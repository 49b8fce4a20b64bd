import NamelistCatalog.Store

/-!
Edits of a store: what anyone with access to the tables may do to them, within the constraints that
the tables carry. Text columns turn numbers into text, and columns of whole numbers turn text that
spells a number into that number.
-/

namespace NamelistCatalog

/-- A decimal number as it is spelled: its digits, and the power of ten that they are to be multiplied
by. -/
structure Decimal where
  isNegative : Bool
  digits : Nat
  exponent : Int
  /-- Neither a point nor an exponent is written. -/
  isPlain : Bool
deriving DecidableEq, Repr

namespace Decimal

/-- The blanks that may stand around a number. -/
def isSpace (c : Char) : Bool := c == ' ' || (9 ≤ c.toNat && c.toNat ≤ 13)

/-- The sign in front of a text, and the rest. -/
def sign : List Char → Bool × List Char
  | '-' :: rest => (true, rest)
  | '+' :: rest => (false, rest)
  | s => (false, s)

/-- The exponent that a text spells with its letter; of a large one it counts only that it is large. -/
def exponent? : List Char → Option Int
  | [] => some 0
  | c :: rest =>
      let (isNegative, digits) := sign rest
      if (c == 'e' || c == 'E') && !digits.isEmpty && digits.all Char.isDigit then
        let size : Int := min (Text.decimalValue digits) 10000
        some (if isNegative then -size else size)
      else none

def ofText? (text : List Char) : Option Decimal := do
  let (isNegative, unsigned) := sign (Text.dropEndWhile isSpace (text.dropWhile isSpace))
  let (whole, more) := unsigned.span Char.isDigit
  let (fraction, power) :=
    if more.head? == some '.' then more.tail.span Char.isDigit else ([], more)
  let digits := whole ++ fraction
  if digits.isEmpty then none
  else
    let exponent ← exponent? power
    pure
      { isNegative
        digits := Text.decimalValue digits
        exponent := exponent - fraction.length
        isPlain := more.isEmpty }

/-- A quotient rounded to a whole number, and from the middle to an even one. -/
def roundedQuotient (m n : Nat) : Nat :=
  let rest := 2 * (m % n)
  if rest < n ∨ rest = n ∧ m / n % 2 = 0 then m / n else m / n + 1

/-- The size of the number, if that is whole after rounding to the 53 binary digits of a double. -/
def whole? (d : Decimal) : Option Nat :=
  let m := d.digits * Nat.pow 10 d.exponent.toNat
  let n := Nat.pow 10 (-d.exponent).toNat
  let size := Nat.log2 (m / n)
  -- The binary digits behind the point that are kept, and those before it that are lost.
  let places := if m < n then 53 else 52 - size
  let lost := size - 52
  let rounded := roundedQuotient (m <<< places) (n <<< lost)
  let whole := rounded >>> places
  -- Nothing but a number of at most half the least double is rounded to zero.
  if whole <<< places = rounded ∧ (rounded = 0 → m <<< 1075 ≤ n) then some (whole <<< lost) else none

/-- What a column of whole numbers holds for a number that is spelled so. -/
def cell (d : Decimal) (spelling : String) : NumberCell :=
  let signed := fun n : Nat => if d.isNegative then -(n : Int) else n
  if d.isPlain ∧ (Int64.ofInt (signed d.digits)).toInt = signed d.digits then
    .number (signed d.digits)
  else
    match d.whole? with
    | some n => if n.log2 < 63 then .number (signed n) else .real spelling
    | none => .real spelling

end Decimal

/-- A value that an edit puts into a column. -/
inductive CellValue where
  | null
  | number (n : Int)
  | text (s : String)
deriving DecidableEq, Repr

namespace CellValue

/-- The text that a text column holds for a value. -/
def toText? : CellValue → Option String
  | .null => none
  | .number n => some (toString n)
  | .text s => some s

/-- What a column of whole numbers holds for a value. -/
def toNumber? : CellValue → Option NumberCell
  | .null => none
  | .number n => some (.number n)
  | .text s =>
      match Decimal.ofText? s.toList with
      | some d => some (d.cell s)
      | none => some (.text s)

end CellValue

/-- An edit. Rows are named by their folded names, and keep their places: the column `id` is given to a
row once and for all. -/
inductive Edit where
  | setUserVersion (version : Int32)
  | setMetadata (key : String) (value : CellValue)
  | deleteMetadata (key : String)
  | update (row : String) (column : Column) (value : CellValue)
  | deleteRow (row : String)
  /-- A new row; columns without a value get their default. -/
  | insertRow (cells : List (Column × CellValue))
  | dropTable (table : Table)
deriving DecidableEq, Repr

namespace EntryRow

def needed {α : Type} (column : Column) : Option α → Except StoreFault α
  | some a => .ok a
  | none => .error (.missingValue ("entries." ++ column.label))

def set (r : EntryRow) (column : Column) (value : CellValue) : Except StoreFault EntryRow :=
  let text := needed column value.toText?
  match column with
  | .name => text.map fun s => { r with name := s }
  | .foldedName => text.map fun s => { r with foldedName := s }
  | .namelist => text.map fun s => { r with namelist := s }
  | .valueType => text.map fun s => { r with valueType := s }
  | .dim => (needed column value.toNumber?).map fun n => { r with dim := n }
  | .ord => .ok { r with ord := value.toNumber? }
  | .defaultValue => .ok { r with defaultValue := value.toText? }
  | .summary => text.map fun s => { r with summary := s }
  | .doc => text.map fun s => { r with doc := s }
  | .version => text.map fun s => { r with version := s }
  | .origin => text.map fun s => { r with origin := s }

/-- What a column of a new row holds when no value is given. -/
def defaultCell : Column → CellValue
  | .namelist => .text ""
  | .dim => .number 0
  | .origin => .text ""
  | _ => .null

/-- A new row with these values. The first column that lacks a value it needs is reported. -/
def ofCells (id : Nat) (cells : List (Column × CellValue)) : Except StoreFault EntryRow :=
  let empty : EntryRow :=
    { id, name := "", foldedName := "", namelist := "", valueType := "", dim := .number 0
      ord := none, defaultValue := none, summary := "", doc := "", version := "", origin := "" }
  Column.all.foldlM
    (fun r column => r.set column ((cells.lookup column).getD (defaultCell column))) empty

/-- Whether another row has the folded name of this one. -/
def isTaken (rows : List EntryRow) (r : EntryRow) : Bool :=
  rows.any fun other => other.id != r.id && other.foldedName == r.foldedName

end EntryRow

namespace Store

/-- The rows of the table `entries`, for an edit. -/
def editableEntries (s : Store) : Except StoreFault (List EntryRow) :=
  match s.entries with
  | some rows => .ok rows
  | none => .error (.noSuchTable .entries)

/-- The rows of the table `meta`, for an edit. -/
def editableMetadata (s : Store) : Except StoreFault (List (String × String)) :=
  match s.metadata with
  | some rows => .ok rows
  | none => .error (.noSuchTable .metadata)

/-- Changes a column of the row with this folded name. -/
def update (s : Store) (row : String) (column : Column) (value : CellValue) :
    Except StoreFault (Nat × Store) := do
  let rows ← s.editableEntries
  match rows.find? fun r => r.foldedName == row with
  | none => pure (0, s)
  | some old =>
      let r ← old.set column value
      if EntryRow.isTaken rows r then throw .foldedNameTaken
      else
        let changed := rows.map fun other => if other.id == r.id then r else other
        pure (1, { s with entries := some changed })

/-- Makes an edit: the number of rows that it changes, and the store after it. -/
def edit (s : Store) : Edit → Except StoreFault (Nat × Store)
  | .setUserVersion version => .ok (0, { s with userVersion := version.toInt })
  | .setMetadata key value => do
      let metadata ← s.editableMetadata
      match value.toText? with
      | none => throw (.missingValue "meta.value")
      | some text => pure (1, { s with metadata := some (putMetadata key text metadata) })
  | .deleteMetadata key => do
      let metadata ← s.editableMetadata
      let kept := metadata.filter fun p => p.1 != key
      pure (metadata.length - kept.length, { s with metadata := some kept })
  | .update row column value => s.update row column value
  | .deleteRow row => do
      let rows ← s.editableEntries
      let kept := rows.filter fun r => r.foldedName != row
      pure (rows.length - kept.length, { s with entries := some kept })
  | .insertRow cells => do
      let rows ← s.editableEntries
      let r ← EntryRow.ofCells (EntryRow.nextId rows) cells
      if EntryRow.isTaken rows r then throw .foldedNameTaken
      else pure (1, { s with entries := some (rows ++ [r]) })
  | .dropTable .entries => do
      let _ ← s.editableEntries
      pure (0, { s with entries := none })
  | .dropTable .metadata => do
      let _ ← s.editableMetadata
      pure (0, { s with metadata := none })

/-- Both tables as they are, the facts about the catalog in the order of their keys. -/
def dump (s : Store) : Except StoreFault (List EntryRow × List (String × String)) := do
  let rows ← s.editableEntries
  let metadata ← s.editableMetadata
  pure (rows, metadata.mergeSort fun a b => decide (a.1 ≤ b.1))

end Store

end NamelistCatalog
