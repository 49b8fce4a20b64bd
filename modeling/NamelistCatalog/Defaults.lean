import NamelistCatalog.Defaults.Doc
import NamelistCatalog.Literal
import NamelistCatalog.Statement
import NamelistCatalog.Statement.Nesting
import NamelistCatalog.Text.Lines
import NamelistCatalog.Warning

/-!
Defaults documents: assignments `name = literal`, each of which a documentation block may precede.
Assignments to several elements of one array describe one parameter.

A document is read in two steps: its lines become items, and the items give the documentation and
the records.
-/

namespace NamelistCatalog

/-- An assignment: a name, an index list if it has one, and the text after the equals sign. -/
structure Assignment where
  name : List Char
  index : Option (List Char)
  value : List Char
deriving DecidableEq, Repr

namespace Assignment

/-- The assignment that a statement is, if it is one. An index list reaches to the last parenthesis
before the first equals sign. -/
def ofStatement? (statement : List Char) : Option Assignment :=
  let name := statement.takeWhile Name.isNameChar
  if !Name.isIdentifier name then none
  else
    match Text.trimStart (statement.dropWhile Name.isNameChar) with
    | '(' :: rest =>
        match rest.dropWhile (· != '=') with
        | [] => none
        | _ :: value =>
            (Text.dropEnd? [')'] (Text.trimEnd (rest.takeWhile (· != '=')))).map fun index =>
              ⟨name, some index, value⟩
    | '=' :: value => some ⟨name, none, value⟩
    | _ => none

/-- The literal that is assigned: commas at its end separate it from what follows. -/
def literal (a : Assignment) : List Char :=
  Text.trimEnd (Text.dropEndWhile (· == ',') (Text.trim a.value))

end Assignment

/-- One parameter of a defaults document. -/
structure DefaultsRecord where
  /-- The name as the first assignment writes it. -/
  name : String
  defaultValue : DefaultValue
  /-- The type that the literal shows. -/
  inferred : Inferred
  /-- The rank that the index lists show, and zero for a scalar. -/
  dim : UInt8
  /-- The place among the records of the document. -/
  order : UInt32
  doc : String := ""
  /-- The line of the first assignment. -/
  line : Nat
deriving DecidableEq, Repr

/-- What the lines of a defaults document are. -/
inductive DefaultsItem where
  | blank
  | header (name : String)
  | comment (body : List Char)
  | statement (number : Nat) (text : List Char)
deriving DecidableEq, Repr

namespace DefaultsItem

/-- The items of lines of which the first has this number. A comment that starts with a hash and is
no header is left out. -/
def ofLinesFrom (number : Nat) : List Line → List DefaultsItem
  | [] => []
  | line :: rest =>
      if Text.isBlankText line then .blank :: ofLinesFrom (number + 1) rest
      else
        match line.commentBody? with
        | some body =>
            match DocHeader.ofComment? body rest.head? with
            | some title =>
                let more := if title.underlined then 1 else 0
                .header title.name :: ofLinesFrom (number + 1 + more) (rest.drop more)
            | none =>
                if (Text.trimStart body).head? == some '#' then ofLinesFrom (number + 1) rest
                else .comment body :: ofLinesFrom (number + 1) rest
        | none =>
            let joined := Statement.join line rest
            .statement number joined.1 ::
              ofLinesFrom (number + 1 + joined.2) (rest.drop joined.2)
termination_by lines => lines.length

def docEvent : DefaultsItem → DocEvent
  | .blank => .blank
  | .header name => .header name
  | .comment body => .line body
  | .statement _ _ => .endBlock

def codeLine? : DefaultsItem → Option CodeLine
  | .statement number text => some ⟨number, text⟩
  | _ => none

end DefaultsItem

/-- What a defaults document assigns, and what it could not be read as. -/
structure DefaultsDocument where
  records : List DefaultsRecord := []
  /-- The number of statements that are no assignments. -/
  skipped : Nat := 0
  warnings : List Warning := []
deriving DecidableEq, Repr

/-- What is known while the statements of a defaults document are read. -/
structure DefaultsReader where
  /-- The records under their folded names, the latest first. -/
  records : List (String × DefaultsRecord) := []
  skipped : Nat := 0
  /-- The warnings, the latest first. -/
  warnings : List Warning := []
deriving DecidableEq, Repr

namespace DefaultsReader

/-- The delimiters of a namelist group, and statements of which nothing is left. -/
def isDelimiter (statement : List Char) : Bool :=
  statement.isEmpty || statement.head? == some '&' || statement == ['/']

def warn (r : DefaultsReader) (w : Warning) : DefaultsReader :=
  { r with warnings := w :: r.warnings }

def skip (r : DefaultsReader) (origin : String) (number : Nat) (statement : List Char) :
    DefaultsReader :=
  { r with
    skipped := r.skipped + 1
    warnings :=
      { kind := .malformedRecord, origin, line := some number
        detail := "expected `name = value`, found `" ++ String.ofList statement ++ "`" } ::
        r.warnings }

/-- Reads a further assignment to a name: one more element of an array raises the rank where that
is needed, and anything else is a repetition. -/
def repeated (r : DefaultsReader) (origin : String) (number : Nat) (key : String)
    (first : DefaultsRecord) (a : Assignment) : DefaultsReader :=
  match a.index with
  | some index =>
      if 0 < first.dim then
        let record := { first with dim := max first.dim (rankOf index) }
        { r with records := r.records.map fun p => if p.1 == key then (key, record) else p }
      else r.warn (warning a.name)
  | none => r.warn (warning a.name)
where
  /-- The warning about a repetition. -/
  warning (name : List Char) : Warning :=
    { kind := .duplicateInDocument, origin, line := some number, name := some (String.ofList name)
      detail := "already assigned on line " ++ toString first.line ++ "; keeping the first" }

def fresh (r : DefaultsReader) (origin : String) (number : Nat) (key : String) (a : Assignment) :
    DefaultsReader :=
  let literal := a.literal
  let record : DefaultsRecord :=
    { name := String.ofList a.name
      defaultValue := if literal.isEmpty then .unset else .literal (String.ofList literal)
      inferred := if literal.isEmpty then ⟨.unknown, false⟩ else Literal.infer literal
      dim := (a.index.map rankOf).getD 0
      order := UInt32.ofNat (min r.records.length 4294967295)
      line := number }
  let r := { r with records := (key, record) :: r.records }
  if literal.isEmpty then
    r.warn { kind := .missingValue, origin, line := some number, name := some record.name
             detail := "assignment has no value" }
  else r

def step (origin : String) (r : DefaultsReader) (statement : CodeLine) : DefaultsReader :=
  if isDelimiter statement.text then r
  else
    match Assignment.ofStatement? statement.text with
    | none => r.skip origin statement.number statement.text
    | some a =>
        let key := Name.fold (String.ofList a.name)
        match r.records.lookup key with
        | some first => r.repeated origin statement.number key first a
        | none => r.fresh origin statement.number key a

end DefaultsReader

namespace DefaultsDocument

def ofItems (origin : String) (items : List DefaultsItem) : DefaultsDocument :=
  let texts := Doc.ofEvents (items.map DefaultsItem.docEvent)
  let r := (items.filterMap DefaultsItem.codeLine?).foldl (DefaultsReader.step origin) {}
  { records := r.records.reverse.map fun p => { p.2 with doc := (texts.lookup p.1).getD "" }
    skipped := r.skipped
    warnings := r.warnings.reverse }

/-- Reads a defaults document. `origin` is the label of the document. -/
def parse (origin : String) (text : List Char) : DefaultsDocument :=
  ofItems origin (DefaultsItem.ofLinesFrom 1 (Text.lines text))

end DefaultsDocument

end NamelistCatalog
