import NamelistCatalog.Entry
import NamelistCatalog.Text.Lines
import NamelistCatalog.Text.Search

namespace NamelistCatalog.Summary

/-- The largest number of characters of a summary that is not cut. -/
def maxLength : Nat := 160

/-- The first paragraph with more than blanks in it, without the blanks around it. -/
def firstParagraph (doc : List Char) : List Char :=
  (((Text.paragraphs doc).map Text.trim).find? fun p => !p.isEmpty).getD []

/-- The words of a text with one space between neighbours. -/
def collapse (s : List Char) : List Char := Text.joinWith [' '] (Text.words s)

/-- The text up to the first period that a space follows. -/
def firstSentence (s : List Char) : List Char :=
  match Text.splitOnce? ['.', ' '] s with
  | some (before, _) => before ++ ['.']
  | none => s

/-- A text that is too long, cut and marked with an ellipsis. -/
def cut (s : List Char) : List Char :=
  if s.length ≤ maxLength then s else Text.trimEnd (s.take maxLength) ++ ['.', '.', '.']

def ofDoc (doc : String) : String :=
  String.ofList (cut (firstSentence (collapse (firstParagraph doc.toList))))

end NamelistCatalog.Summary

namespace NamelistCatalog.Entry

/-- The entry with a documentation text and the summary of that text. -/
def withDoc (e : Entry) (doc : String) : Entry := { e with doc, summary := Summary.ofDoc doc }

end NamelistCatalog.Entry
