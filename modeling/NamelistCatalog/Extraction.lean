import NamelistCatalog.Declarations
import NamelistCatalog.Defaults
import NamelistCatalog.Source
import NamelistCatalog.Summary

/-!
Extraction: the entries that source sets give. Sets are taken one at a time, when their entries are
asked for. Within a set, declarations give records their type and rank, and the declared names
without a record come last, with no default.
-/

namespace NamelistCatalog

/-- What has been extracted. -/
structure ExtractionSummary where
  /-- The number of entries that were handed out. -/
  yielded : Nat := 0
  /-- The number of malformed records. -/
  skipped : Nat := 0
  /-- The number of documents that could be read. -/
  documentsRead : Nat := 0
  warnings : List Warning := []
deriving DecidableEq, Repr

/-- What one source set gives. -/
structure SetYield where
  entries : List Entry
  skipped : Nat
  documentsRead : Nat
  warnings : List Warning
deriving DecidableEq, Repr

namespace LoadedDocument

/-- The warning that a document could not be read, if it could not. -/
def fault? (d : LoadedDocument) : Option Warning :=
  match d.contents with
  | .ok _ => none
  | .error fault =>
      some { kind := .unreadableDocument, origin := d.label, detail := fault.message }

/-- The label and the text of a document that could be read. -/
def readable? (d : LoadedDocument) : Option (String × List Char) :=
  match d.contents with
  | .ok text => some (d.label, text)
  | .error _ => none

end LoadedDocument

/-- A declaration and the label of its document. -/
abbrev Declared := Declaration × String

namespace Declared

/-- The declarations under their folded names; the first declaration of a name counts. -/
def index (seen : List (String × Declared)) : List Declared → List (String × Declared)
  | [] => seen.reverse
  | d :: rest =>
      let key := Name.fold d.1.name
      if (seen.lookup key).isSome then index seen rest else index ((key, d) :: seen) rest

end Declared

namespace LoadedSet

/-- The labels and texts of the documents of a kind that could be read. -/
def readable (s : LoadedSet) (kind : DocumentKind) : List (String × List Char) :=
  (s.documentsOf kind).filterMap LoadedDocument.readable?

/-- The warnings about documents of a kind that could not be read. -/
def faults (s : LoadedSet) (kind : DocumentKind) : List Warning :=
  (s.documentsOf kind).filterMap LoadedDocument.fault?

/-- The entry of a record, with the type and rank of its declaration if it has one. -/
def entryOfRecord (s : LoadedSet) (origin : String) (declaration : Option Declaration)
    (record : DefaultsRecord) : Entry :=
  let base : Entry :=
    { name := record.name
      defaultValue := record.defaultValue
      version := s.version
      namelist := s.namelist
      valueType := (declaration.map Declaration.valueType).getD record.inferred.valueType
      dim := (declaration.map fun d => max d.dim record.dim).getD record.dim
      order := some record.order
      origin }
  base.withDoc record.doc

/-- The warning that a record has neither a declaration nor a literal that shows its type. -/
def ambiguity? (origin : String) (declaration : Option Declaration) (record : DefaultsRecord) :
    Option Warning :=
  if declaration.isNone && record.inferred.ambiguous then
    some { kind := .ambiguousValue, origin, line := some record.line, name := some record.name
           detail := "type not inferable from literal; treating as character" }
  else none

/-- The entry of a name that is declared and never assigned. -/
def entryOfDeclared (s : LoadedSet) (declared : Declared) : Entry :=
  { name := declared.1.name
    version := s.version
    namelist := s.namelist
    valueType := declared.1.valueType
    dim := declared.1.dim
    origin := declared.2 }

def extract (s : LoadedSet) : SetYield :=
  let declarations := (s.readable .declarations).map fun d =>
    (d.1, DeclarationsDocument.parse d.1 d.2)
  let defaults := (s.readable .defaults).map fun d => (d.1, DefaultsDocument.parse d.1 d.2)
  let index := Declared.index [] (declarations.flatMap fun d => d.2.declarations.map (·, d.1))
  let records := defaults.flatMap fun d =>
    d.2.records.map fun record => (d.1, Name.fold record.name, record)
  let declarationOf := fun key => (index.lookup key).map Prod.fst
  let assigned := records.map fun r => r.2.1
  let leftover := index.filter fun d => !assigned.contains d.1
  { entries :=
      (records.map fun r => s.entryOfRecord r.1 (declarationOf r.2.1) r.2.2) ++
        leftover.map fun d => s.entryOfDeclared d.2
    skipped :=
      declarations.foldl (fun n d => n + d.2.skipped) 0 + defaults.foldl (fun n d => n + d.2.skipped) 0
    documentsRead := declarations.length + defaults.length
    warnings :=
      s.faults .declarations ++ s.faults .defaults ++
        (declarations.flatMap fun d => d.2.warnings) ++
        defaults.flatMap fun d =>
          d.2.warnings ++ d.2.records.filterMap fun record =>
            ambiguity? d.1 (declarationOf (Name.fold record.name)) record }

end LoadedSet

/-- An extraction under way: the sets that have not been looked at, the entries of the current set
that have not been handed out, and the totals. -/
structure Extraction where
  pending : List LoadedSet
  buffer : List Entry := []
  summary : ExtractionSummary := {}

namespace ExtractionSummary

def add (t : ExtractionSummary) (y : SetYield) : ExtractionSummary :=
  { t with
    skipped := t.skipped + y.skipped
    documentsRead := t.documentsRead + y.documentsRead
    warnings := t.warnings ++ y.warnings }

/-- The totals after handing out `n` more entries. -/
def yield (t : ExtractionSummary) (n : Nat) : ExtractionSummary :=
  { t with yielded := t.yielded + n }

end ExtractionSummary

namespace Extraction

def ofSets (sets : List LoadedSet) : Extraction := { pending := sets }

/-- The next entry of these sets, if they give any, and the extraction after it. -/
def nextOfSets (summary : ExtractionSummary) : List LoadedSet → Option Entry × Extraction
  | [] => (none, { pending := [], summary })
  | set :: rest =>
      let y := set.extract
      match y.entries with
      | [] => nextOfSets (summary.add y) rest
      | e :: buffer =>
          (some e, { pending := rest, buffer, summary := (summary.add y).yield 1 })

/-- The next entry, if there is one, and the extraction after it. -/
def next (x : Extraction) : Option Entry × Extraction :=
  match x.buffer with
  | e :: buffer => (some e, { x with buffer, summary := x.summary.yield 1 })
  | [] => nextOfSets x.summary x.pending

/-- The next entries, at most `n` of them, and the extraction after them. -/
def take (x : Extraction) : Nat → List Entry × Extraction
  | 0 => ([], x)
  | n + 1 =>
      match x.next with
      | (none, x) => ([], x)
      | (some e, x) =>
          let more := x.take n
          (e :: more.1, more.2)

/-- All entries of these sets, and the totals after them. -/
def drainSets (summary : ExtractionSummary) : List LoadedSet → List Entry × ExtractionSummary
  | [] => ([], summary)
  | set :: rest =>
      let y := set.extract
      let more := drainSets ((summary.add y).yield y.entries.length) rest
      (y.entries ++ more.1, more.2)

/-- All entries that are left, and the totals after them. -/
def drain (x : Extraction) : List Entry × ExtractionSummary :=
  let more := drainSets (x.summary.yield x.buffer.length) x.pending
  (x.buffer ++ more.1, more.2)

end Extraction

end NamelistCatalog
