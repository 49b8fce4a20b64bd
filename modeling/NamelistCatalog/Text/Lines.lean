import NamelistCatalog.Text.Blank

namespace NamelistCatalog.Text

/-- The line without the carriage return of its ending. -/
def dropReturn (line : List Char) : List Char :=
  if line.getLast? = some '\r' then line.dropLast else line

/-- The lines that the parts between line feeds stand for: the last part had no line feed, so it
keeps its carriage return, and it is no line when it is empty. -/
def linesOfParts : List (List Char) → List (List Char)
  | [] => []
  | [last] => if last.isEmpty then [] else [last]
  | line :: more => dropReturn line :: linesOfParts more

def lines (s : List Char) : List (List Char) := linesOfParts (fields (· == '\n') s)

/-- Puts a character in front of the first part. -/
def consFirst (c : Char) : List (List Char) → List (List Char)
  | [] => [[c]]
  | part :: rest => (c :: part) :: rest

/-- The parts between pairs of line feeds, the pairs taken from the left. -/
def paragraphs : List Char → List (List Char)
  | '\n' :: '\n' :: rest => [] :: paragraphs rest
  | c :: rest => consFirst c (paragraphs rest)
  | [] => [[]]

@[simp] theorem lines_nil : lines [] = [] := rfl

end NamelistCatalog.Text
