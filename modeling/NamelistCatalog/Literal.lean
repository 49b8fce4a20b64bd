import NamelistCatalog.Entry
import NamelistCatalog.Statement.Line
import NamelistCatalog.Text.Case
import NamelistCatalog.Text.ClassTable

namespace NamelistCatalog

namespace Text

def isDecimalDigit (c : Char) : Bool := c.isDigit || inRanges digitRanges c

/-- A word character: a letter, a mark, a decimal digit, a connector such as the underscore, or a
join control. -/
def isWordChar (c : Char) : Bool :=
  c.isAlphanum || c == '_' || (127 < c.toNat && inRanges wordRanges c)

end Text

/-- The type that a literal shows. -/
structure Inferred where
  valueType : ValueType
  /-- The literal has no known form and was taken for text. -/
  ambiguous : Bool := false
deriving DecidableEq, Repr

namespace Literal

def afterSign : List Char → List Char
  | '+' :: rest => rest
  | '-' :: rest => rest
  | s => s

def isExponentLetter (c : Char) : Bool :=
  c == 'e' || c == 'E' || c == 'd' || c == 'D' || c == 'q' || c == 'Q'

def isKindSuffix : List Char → Bool
  | [] => true
  | c :: kind => c == '_' && !kind.isEmpty && kind.all Text.isWordChar

/-- The text after an exponent, or the whole text when it does not start with one. -/
def afterExponent : List Char → List Char
  | [] => []
  | c :: rest =>
      let digits := (afterSign rest).takeWhile Text.isDecimalDigit
      if isExponentLetter c && !digits.isEmpty then
        (afterSign rest).dropWhile Text.isDecimalDigit
      else c :: rest

/-- The text after digits with an optional point, or a point with digits after it. -/
def afterMantissa? (s : List Char) : Option (List Char) :=
  match s.takeWhile Text.isDecimalDigit, s.dropWhile Text.isDecimalDigit with
  | [], '.' :: rest =>
      if (rest.takeWhile Text.isDecimalDigit).isEmpty then none
      else some (rest.dropWhile Text.isDecimalDigit)
  | [], _ => none
  | _ :: _, '.' :: rest => some (rest.dropWhile Text.isDecimalDigit)
  | _ :: _, rest => some rest

/-- An optional sign, digits, an optional kind. -/
def isInteger (s : List Char) : Bool :=
  !((afterSign s).takeWhile Text.isDecimalDigit).isEmpty &&
    isKindSuffix ((afterSign s).dropWhile Text.isDecimalDigit)

/-- An optional sign, digits with an optional point, an optional exponent, an optional kind. -/
def isReal (s : List Char) : Bool :=
  match afterMantissa? (afterSign s) with
  | some rest => isKindSuffix (afterExponent rest)
  | none => false

/-- One of the four logical constants, in any case. -/
def isLogical (s : List Char) : Bool :=
  let word := String.ofList (Text.asciiLower s)
  word == ".true." || word == ".false." || word == ".t." || word == ".f."

def isQuoted : List Char → Bool
  | [] => false
  | c :: _ => isQuote c

/-- The type that a literal shows. A literal of no known form, such as a named constant, is taken
for text. -/
def infer (literal : List Char) : Inferred :=
  let s := Text.trim literal
  if isLogical s then ⟨.logical, false⟩
  else if isQuoted s then ⟨.character, false⟩
  else if isInteger s then ⟨.integer, false⟩
  else if isReal s then ⟨.real, false⟩
  else ⟨.character, true⟩

end Literal

end NamelistCatalog
