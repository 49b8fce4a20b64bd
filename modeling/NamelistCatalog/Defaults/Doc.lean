import NamelistCatalog.Name
import NamelistCatalog.Statement.Line
import NamelistCatalog.Text.Search

namespace NamelistCatalog

/-- A header: the parameter that it names, folded, and whether its title takes a second line. -/
structure DocHeader where
  name : String
  underlined : Bool
deriving DecidableEq, Repr

namespace DocHeader

/-- The folded name that a title such as `x_ctrl(1..30)` gives: an identifier, followed by nothing
or by a parenthesis. -/
def nameOf? (title : List Char) : Option String :=
  let isEnd := fun c => c == '(' || Text.isBlank c
  let name := String.ofList (title.takeWhile fun c => !isEnd c)
  let rest := Text.trimStart (title.dropWhile fun c => !isEnd c)
  if Name.isValid name && (rest.isEmpty || rest.head? == some '(') then some (Name.fold name)
  else none

/-- Whether the line is a comment of three or more tildes. -/
def isUnderline (line : Line) : Bool :=
  match line.commentBody? with
  | none => false
  | some body =>
      let mark := Text.trim body
      decide (3 ≤ mark.length) && mark.all (· == '~')

/-- The header that a comment with this body is, in front of the line `next`: a title after three
hashes, or a title that the next line underlines. -/
def ofComment? (body : List Char) (next : Option Line) : Option DocHeader :=
  match Text.dropStart? ['#', '#', '#'] (Text.trim body) with
  | some title => (nameOf? (Text.trim title)).map fun name => ⟨name, false⟩
  | none =>
      if next.any isUnderline then (nameOf? (Text.trim body)).map fun name => ⟨name, true⟩
      else none

end DocHeader

/-- What the lines of a defaults document mean to its documentation. -/
inductive DocEvent where
  | header (name : String)
  | line (body : List Char)
  | blank
  /-- A line of code. -/
  | endBlock
deriving DecidableEq, Repr

namespace Doc

/-- Blank lines and bare literal-block markers show nothing. -/
def isInvisible (line : List Char) : Bool :=
  Text.isBlankText line || Text.trim line == [':', ':']

/-- The number of bytes that a text takes in UTF-8. -/
def byteCount (s : List Char) : Nat := s.foldl (fun n c => n + c.utf8Size) 0

/-- The indentation of a line, counted in bytes. -/
def indentation (line : List Char) : Nat := byteCount (line.takeWhile Text.isBlank)

/-- The text without its first `n` bytes, unless they end inside a character. -/
def dropBytes? : Nat → List Char → Option (List Char)
  | 0, s => some s
  | _ + 1, [] => none
  | n + 1, c :: rest => if c.utf8Size ≤ n + 1 then dropBytes? (n + 1 - c.utf8Size) rest else none

/-- The smallest number of a list, and zero for none. -/
def minimum : List Nat → Nat
  | [] => 0
  | n :: rest => rest.foldl min n

/-- The indentation that all visible lines share. -/
def commonIndentation (lines : List (List Char)) : Nat :=
  minimum ((lines.filter fun line => !isInvisible line).map indentation)

/-- A line without the common indentation, as it is shown: a literal-block marker at its end becomes
a colon. A line that cannot be cut there loses all its indentation. -/
def renderLine (indent : Nat) (line : List Char) : List Char :=
  if isInvisible line then []
  else
    let text := Text.trimEnd ((dropBytes? indent line).getD (Text.trimStart line))
    match Text.dropEnd? [':', ':'] text with
    | some head => Text.trimEnd head ++ [':']
    | none => text

/-- The lines without the empty ones that follow an empty line, the first line counting as one that
does when `afterEmpty` holds. -/
def squeeze (afterEmpty : Bool) : List (List Char) → List (List Char)
  | [] => []
  | line :: rest =>
      if line.isEmpty then if afterEmpty then squeeze true rest else line :: squeeze true rest
      else line :: squeeze false rest

/-- The lines without the empty ones at the end. -/
def dropEmptyEnd (lines : List (List Char)) : List (List Char) :=
  (lines.reverse.dropWhile List.isEmpty).reverse

/-- The lines of a documentation text, as they are shown. -/
def renderLines (lines : List (List Char)) : List (List Char) :=
  dropEmptyEnd (squeeze true (lines.map (renderLine (commonIndentation lines))))

/-- The documentation text that the lines of a block give. -/
def render (lines : List (List Char)) : String :=
  String.ofList (Text.joinWith ['\n'] (renderLines lines))

/-- The documentation that a name has; the first block that a name heads documents it. -/
abbrev Texts := List (String × String)

/-- What is known while a document is read: the block that is open, if one is, and the texts of the
closed ones. -/
structure Collector where
  names : List String := []
  lines : List (List Char) := []
  isOpen : Bool := false
  texts : Texts := []
deriving DecidableEq, Repr

namespace Collector

def close (c : Collector) : Collector :=
  { texts := c.texts ++ c.names.map fun name => (name, render c.lines) }

def push (c : Collector) (line : List Char) : Collector :=
  if c.isOpen then { c with lines := c.lines ++ [line] } else c

/-- Reads one event. A header after some text starts a new block. -/
def step (c : Collector) : DocEvent → Collector
  | .header name =>
      let c := if c.lines.all Text.isBlankText then c else c.close
      { c with names := c.names ++ [name], isOpen := true }
  | .line body => c.push body
  | .blank => c.push []
  | .endBlock => if c.isOpen then c.close else c

/-- The texts at the end of a document, where an open block closes. -/
def finish (c : Collector) : Texts := (c.step .endBlock).texts

end Collector

/-- The documentation that a sequence of events gives. -/
def ofEvents (events : List DocEvent) : Texts :=
  (events.foldl Collector.step ({} : Collector)).finish

end Doc

end NamelistCatalog
