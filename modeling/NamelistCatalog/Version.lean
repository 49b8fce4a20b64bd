import NamelistCatalog.Text.Blank
import NamelistCatalog.Text.Decimal

/-!
Source versions: the release labels that parameters come from. Labels are opaque, but they have a
natural order in which runs of digits compare as numbers, so `v10` comes after `v9`.
-/

namespace NamelistCatalog

/-- A release label. -/
structure SourceVersion where
  /-- The label as written. -/
  text : String
deriving DecidableEq, Repr, Inhabited

namespace SourceVersion

/-- The release label that a text gives once the blanks around it are gone. -/
def ofString (s : String) : SourceVersion := ⟨String.ofList (Text.trim s.toList)⟩

/-- The number that the label starts with, unless it is missing or too large to be a count. -/
def number? (v : SourceVersion) : Option Nat := Text.count? (v.text.toList.takeWhile Char.isDigit)

/-- A run of digits without its leading zeros, or a run of other characters. -/
inductive Chunk where
  | number (digits : List Char)
  | text (chars : List Char)
deriving DecidableEq, Repr

/-- The chunk that a run of characters of one kind stands for. -/
def Chunk.ofRun (run : List Char) : Chunk :=
  match run with
  | [] => .text []
  | c :: _ => if c.isDigit then .number (run.dropWhile (· == '0')) else .text run

/-- Numbers come before text; of two numbers the one with fewer digits is smaller, and with equally
many the digits decide. -/
def Chunk.compare : Chunk → Chunk → Ordering
  | .number a, .number b => (Ord.compare a.length b.length).then (Ord.compare a b)
  | .text a, .text b => Ord.compare a b
  | .number _, .text _ => .lt
  | .text _, .number _ => .gt

instance : Ord Chunk := ⟨Chunk.compare⟩

/-- The maximal runs of digits and of other characters. -/
def chunks (s : List Char) : List Chunk :=
  (s.splitBy fun a b => a.isDigit == b.isDigit).map Chunk.ofRun

/-- Labels compare chunk by chunk; labels that differ in leading zeros only compare as text. -/
def compare (a b : SourceVersion) : Ordering :=
  (Ord.compare (chunks a.text.toList) (chunks b.text.toList)).then
    (Ord.compare a.text.toList b.text.toList)

instance : Ord SourceVersion := ⟨compare⟩

/-- The higher of two labels, the second one when neither is. -/
def max (a b : SourceVersion) : SourceVersion := if (compare a b).isLE then b else a

/-- The highest label of a list, and the empty label for none. -/
def maximum : List SourceVersion → SourceVersion
  | [] => ⟨""⟩
  | v :: rest => rest.foldl max v

end SourceVersion

end NamelistCatalog
