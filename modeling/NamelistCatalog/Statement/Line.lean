import NamelistCatalog.Text.Blank

namespace NamelistCatalog

abbrev Line := List Char

/-- The apostrophe and the quotation mark, which quote text. -/
def isQuote (c : Char) : Bool := c == '\x27' || c == '\x22'

/-- The quote that is open after a character, given the one open before it. A quote is closed by its
own kind alone. -/
def nextQuote : Option Char → Char → Option Char
  | some mark, c => if c == mark then none else some mark
  | none, c => if isQuote c then some c else none

namespace Line

/-- Whether the line is a comment from its first visible character on. -/
def isComment (line : Line) : Bool := (Text.trimStart line).head? == some '!'

/-- Blank lines and comment lines carry no code. -/
def isCodeless (line : Line) : Bool := Text.isBlankText line || isComment line

/-- The text of a comment line after its exclamation marks. The indentation of the text is kept. -/
def commentBody? (line : Line) : Option (List Char) :=
  match Text.trimStart line with
  | '!' :: rest => some (Text.trimEnd (rest.dropWhile (· == '!')))
  | _ => none

/-- What stands before the first exclamation mark that no quote holds. -/
def codeAfter (quote : Option Char) : List Char → List Char
  | [] => []
  | c :: rest => if quote.isNone && c == '!' then [] else c :: codeAfter (nextQuote quote c) rest

def code (line : Line) : List Char := codeAfter none line

theorem codeAfter_isPrefix (quote : Option Char) (s : List Char) : codeAfter quote s <+: s := by
  induction s generalizing quote with
  | nil => exact List.prefix_rfl
  | cons c rest ih =>
      unfold codeAfter
      split
      · exact List.nil_prefix
      · exact (List.cons_prefix_cons).mpr ⟨rfl, ih _⟩

theorem code_isPrefix (line : Line) : code line <+: line := codeAfter_isPrefix none line

end Line

end NamelistCatalog
