import NamelistCatalog.Entry
import NamelistCatalog.Statement
import NamelistCatalog.Statement.Nesting
import NamelistCatalog.Text.Case
import NamelistCatalog.Text.Lines
import NamelistCatalog.Warning

namespace NamelistCatalog

/-- One declared parameter. -/
structure Declaration where
  /-- The name as the declaration writes it. -/
  name : String
  valueType : ValueType
  /-- The rank of an array, and zero for a scalar. -/
  dim : UInt8
  /-- The line on which the statement starts. -/
  line : Nat
deriving DecidableEq, Repr

/-- What a document declares, and what it could not be read as. -/
structure DeclarationsDocument where
  declarations : List Declaration := []
  /-- The number of declared names that are no identifiers. -/
  skipped : Nat := 0
  warnings : List Warning := []
deriving DecidableEq, Repr

namespace Declaration

/-- The type that a type specifier such as `real(dp)` names. -/
def typeOfSpec (spec : List Char) : ValueType :=
  let lowered := Text.asciiLower (Text.trim spec)
  let head := String.ofList (Text.trim (lowered.takeWhile fun c => c.isAlpha || c == ' '))
  if head == "logical" then .logical
  else if head == "character" then .character
  else if head == "integer" then .integer
  else if head == "real" || head == "double precision" || head == "doubleprecision" then .real
  else .unknown

/-- Whether the statement ends the declaration section. -/
def endsSection (statement : List Char) : Bool :=
  let lowered := Text.asciiLower statement
  lowered == "contains".toList || "contains ".toList.isPrefixOf lowered

/-- Whether an attribute makes its names constants. -/
def isParameter (attr : List Char) : Bool :=
  Text.asciiLower (Text.trim attr) == "parameter".toList

/-- The rank that a dimension attribute gives. -/
def dimensionRank? (attr : List Char) : Option UInt8 :=
  let trimmed := Text.trim attr
  if "dimension".toList.isPrefixOf (Text.asciiLower trimmed) then
    (splitParenthesized? trimmed).map fun parts => rankOf parts.2
  else none

/-- A declared entity without its initial value: its name, without a length suffix, and its rank,
which is that of the attribute when it has no dimensions of its own. -/
def nameAndRank (attributeRank : UInt8) (target : List Char) : List Char × UInt8 :=
  let parts :=
    match splitParenthesized? target with
    | some (head, inside) => (Text.trim head, rankOf inside)
    | none => (target, attributeRank)
  (Text.trim (parts.1.takeWhile (· != '*')), parts.2)

/-- The entity that a part of a declaration declares, if it declares one. -/
def target? (part : List Char) : Option (List Char) :=
  let target := Text.trim ((splitTopLevel '=' part).headD [])
  if target.isEmpty then none else some target

end Declaration

namespace DeclarationsDocument

def append (a b : DeclarationsDocument) : DeclarationsDocument :=
  { declarations := a.declarations ++ b.declarations
    skipped := a.skipped + b.skipped
    warnings := a.warnings ++ b.warnings }

/-- What one entity of a declaration contributes. -/
def ofTarget (origin : String) (line : Nat) (valueType : ValueType) (attributeRank : UInt8)
    (target : List Char) : DeclarationsDocument :=
  let (chars, dim) := Declaration.nameAndRank attributeRank target
  let name := String.ofList chars
  if Name.isValid name then { declarations := [{ name, valueType, dim, line }] }
  else
    { skipped := 1
      warnings :=
        [{ kind := .malformedRecord, origin, line := some line
           detail := "invalid declared name `" ++ name ++ "`" }] }

/-- What one statement declares. Named constants, names of derived types and statements of other
kinds contribute nothing. -/
def ofStatement (origin : String) (statement : CodeLine) : DeclarationsDocument :=
  match Text.splitOnce? "::".toList statement.text with
  | none => {}
  | some (spec, names) =>
      let parts := splitTopLevel ',' spec
      let valueType := Declaration.typeOfSpec (parts.headD [])
      let attributes := parts.tail
      if valueType == .unknown || attributes.any Declaration.isParameter then {}
      else
        let rank := (attributes.findSome? Declaration.dimensionRank?).getD 0
        (((splitTopLevel ',' names).filterMap Declaration.target?).map
          (ofTarget origin statement.number valueType rank)).foldr append {}

/-- What a document declares. `origin` is the label of the document. -/
def parse (origin : String) (text : List Char) : DeclarationsDocument :=
  (((CodeLine.ofLines (Text.lines text)).takeWhile fun s => !Declaration.endsSection s.text).map
    (ofStatement origin)).foldr append {}

end DeclarationsDocument

end NamelistCatalog
