namespace NamelistCatalog

/-- The kinds of warnings. -/
inductive WarningKind where
  /-- A line looked like a record and was skipped. -/
  | malformedRecord
  /-- A document could not be read, and its set went on without it. -/
  | unreadableDocument
  /-- The type of a literal could not be told, and no declaration gave it. -/
  | ambiguousValue
  /-- An assignment without a value. -/
  | missingValue
  /-- A name assigned twice in one document. -/
  | duplicateInDocument
  /-- An entry that gave way to another of its name. -/
  | superseded
deriving DecidableEq, Repr

namespace WarningKind

def all : List WarningKind :=
  [.malformedRecord, .unreadableDocument, .ambiguousValue, .missingValue, .duplicateInDocument,
    .superseded]

def label : WarningKind → String
  | .malformedRecord => "malformed_record"
  | .unreadableDocument => "unreadable_document"
  | .ambiguousValue => "ambiguous_value"
  | .missingValue => "missing_value"
  | .duplicateInDocument => "duplicate_in_document"
  | .superseded => "superseded"

def ofLabel? (label : String) : Option WarningKind := all.find? fun k => k.label == label

theorem mem_all (k : WarningKind) : k ∈ all := by
  cases k <;> decide

end WarningKind

/-- One warning. -/
structure Warning where
  kind : WarningKind
  /-- The label of the document that it is about. -/
  origin : String
  /-- The line that it is about, if it is about one. -/
  line : Option Nat := none
  /-- The parameter that it is about, if it is known. -/
  name : Option String := none
  detail : String
deriving DecidableEq, Repr

namespace Warning

def display (w : Warning) : String :=
  w.origin ++ (w.line.map fun n => ":" ++ toString n).getD "" ++ ": " ++ w.kind.label ++
    (w.name.map fun n => " [" ++ n ++ "]").getD "" ++ ": " ++ w.detail

def count (kind : WarningKind) (warnings : List Warning) : Nat :=
  warnings.countP fun w => w.kind == kind

end Warning

end NamelistCatalog
