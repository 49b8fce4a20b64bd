import NamelistCatalog.Yaml

namespace NamelistCatalog.Yaml

def isSpace (c : Char) : Bool := c == ' ' || c == '\t'

/-- Whether a text is at its end, or goes on with a space or a line break. -/
def startsBlank : List Char → Bool
  | [] => true
  | c :: _ => isSpace c || c == '\n'

/-- The characters that delimit flow collections. -/
def isFlowIndicator (c : Char) : Bool :=
  c == ',' || c == '[' || c == ']' || c == '\x7b' || c == '\x7d'

/-- The characters that a plain scalar never starts with. -/
def isIndicator (c : Char) : Bool :=
  isFlowIndicator c || c == '#' || c == '&' || c == '*' || c == '!' || c == '|' || c == '>' ||
    c == '\x27' || c == '\x22' || c == '%' || c == '@' || c == '\x60'

/-- A scalar as it was read: its text, what follows, and whether it spans several lines. -/
structure Scanned where
  text : List Char
  rest : List Char
  isMultiline : Bool := false

/-- The part of a plain scalar on one line, and what follows it. `afterSpace` tells whether a space
or a line break stands in front, after which a hash starts a comment. -/
def plainLine (inFlow afterSpace : Bool) : List Char → List Char × List Char
  | [] => ([], [])
  | c :: rest =>
      let endsKey := c == ':' && (startsBlank rest || (inFlow && rest.head?.any isFlowIndicator))
      if c == '\n' || endsKey || (c == '#' && afterSpace) || (inFlow && isFlowIndicator c) then
        ([], c :: rest)
      else
        let more := plainLine inFlow (isSpace c) rest
        (c :: more.1, more.2)

/-- Blank lines after a line break: their number, the indentation of the line after them, and that
line with what follows. -/
def nextLine (breaks column : Nat) : List Char → Nat × Nat × List Char
  | ' ' :: rest => nextLine breaks (column + 1) rest
  | '\t' :: rest => nextLine breaks (column + 1) rest
  | '\n' :: rest => nextLine (breaks + 1) 0 rest
  | rest => (breaks, column, rest)

/-- What line breaks between two parts of a scalar stand for, when `extra` lines between them are
blank. -/
def foldBreaks (extra : Nat) : List Char :=
  if extra = 0 then [' '] else List.replicate extra '\n'

/-- Whether a text starts with the three dashes or the three dots of a document marker. -/
def startsLikeMarker (s : List Char) : Bool :=
  ['-', '-', '-'].isPrefixOf s || ['.', '.', '.'].isPrefixOf s

/-- Whether a line at this column starts with a document marker. -/
def isMarker (column : Nat) (s : List Char) : Bool :=
  column == 0 && startsLikeMarker s && startsBlank (s.drop 3)

def trimSpaces (s : List Char) : List Char := (s.reverse.dropWhile isSpace).reverse

/-- A plain scalar whose further lines are indented by `least` at least. The fuel bounds the number
of lines. -/
def plain (inFlow : Bool) (least : Nat) : (fuel : Nat) → List Char → Scanned
  | 0, s => ⟨[], s, false⟩
  | fuel + 1, s =>
      let line := plainLine inFlow true s
      let text := trimSpaces line.1
      match line.2 with
      | '\n' :: after =>
          let (breaks, column, rest) := nextLine 0 0 after
          if (!inFlow && column < least) || rest.isEmpty || rest.head? == some '#' ||
              isMarker column rest || (inFlow && rest.head?.any isFlowIndicator) then
            ⟨text, line.2, false⟩
          else
            let more := plain inFlow least fuel rest
            if more.text.isEmpty then ⟨text, line.2, true⟩
            else ⟨text ++ foldBreaks breaks ++ more.text, more.rest, true⟩
      | rest => ⟨text, rest, false⟩

/-- A scalar in single quotes, after the opening one. A quote in it is written twice. -/
def singleQuoted : (fuel : Nat) → List Char → Option Scanned
  | 0, _ => none
  | _ + 1, [] => none
  | fuel + 1, '\x27' :: '\x27' :: rest => do
      let more ← singleQuoted fuel rest
      pure { more with text := '\x27' :: more.text }
  | _ + 1, '\x27' :: rest => some ⟨[], rest, false⟩
  | fuel + 1, c :: rest =>
      if c == '\n' || (isSpace c && (rest.dropWhile isSpace).head? == some '\n') then do
        let after := ((c :: rest).dropWhile isSpace).drop 1
        let (breaks, _, line) := nextLine 0 0 after
        let more ← singleQuoted fuel line
        pure ⟨foldBreaks breaks ++ more.text, more.rest, true⟩
      else do
        let more ← singleQuoted fuel rest
        pure { more with text := c :: more.text }

def hexValue? (c : Char) : Option Nat :=
  if c.isDigit then some (c.toNat - 48)
  else if 'a' ≤ c ∧ c ≤ 'f' then some (c.toNat - 87)
  else if 'A' ≤ c ∧ c ≤ 'F' then some (c.toNat - 55)
  else none

/-- The character with this code in so many hexadecimal digits, and what follows. -/
def codePoint? (digits : Nat) (s : List Char) : Option (Char × List Char) := do
  let values ← (s.take digits).mapM hexValue?
  let n := values.foldl (fun n d => 16 * n + d) 0
  if values.length = digits ∧ (n < 0xD800 ∨ (0xDFFF < n ∧ n ≤ 0x10FFFF)) then
    pure (Char.ofNat n, s.drop digits)
  else none

/-- The character that an escape stands for, and what follows. -/
def escaped? : List Char → Option (Char × List Char)
  | [] => none
  | c :: rest =>
      if c == 'x' then codePoint? 2 rest
      else if c == 'u' then codePoint? 4 rest
      else if c == 'U' then codePoint? 8 rest
      else
        (([('0', '\x00'), ('a', '\x07'), ('b', '\x08'), ('t', '\t'), ('\t', '\t'), ('n', '\n'),
          ('v', '\x0b'), ('f', '\x0c'), ('r', '\r'), ('e', '\x1b'), (' ', ' '), ('\x22', '\x22'),
          ('/', '/'), ('\\', '\\'), ('N', '\u0085'), ('_', '\u00a0'), ('L', '\u2028'),
          ('P', '\u2029')] : List (Char × Char)).lookup c).map fun value => (value, rest)

/-- A scalar in double quotes, after the opening one. -/
def doubleQuoted : (fuel : Nat) → List Char → Option Scanned
  | 0, _ => none
  | _ + 1, [] => none
  | _ + 1, '\x22' :: rest => some ⟨[], rest, false⟩
  | fuel + 1, '\\' :: '\n' :: rest => do
      let (breaks, _, line) := nextLine 0 0 rest
      let more ← doubleQuoted fuel line
      pure ⟨List.replicate breaks '\n' ++ more.text, more.rest, true⟩
  | fuel + 1, '\\' :: rest => do
      let (c, rest) ← escaped? rest
      let more ← doubleQuoted fuel rest
      pure { more with text := c :: more.text }
  | fuel + 1, c :: rest =>
      if c == '\n' || (isSpace c && (rest.dropWhile isSpace).head? == some '\n') then do
        let after := ((c :: rest).dropWhile isSpace).drop 1
        let (breaks, _, line) := nextLine 0 0 after
        let more ← doubleQuoted fuel line
        pure ⟨foldBreaks breaks ++ more.text, more.rest, true⟩
      else do
        let more ← doubleQuoted fuel rest
        pure { more with text := c :: more.text }

/-- What happens to the line breaks at the end of a literal block. -/
inductive Chomp where
  | clip
  | strip
  | keep
deriving DecidableEq

/-- The header of a literal block: its indentation, if it is given, and its chomping. -/
def literalHeader? (s : List Char) : Option (Option Nat × Chomp) :=
  match s with
  | [] => some (none, .clip)
  | ['-'] => some (none, .strip)
  | ['+'] => some (none, .keep)
  | [d] => (digit? d).map fun n => (some n, .clip)
  | [a, b] =>
      if a == '-' then (digit? b).map fun n => (some n, .strip)
      else if a == '+' then (digit? b).map fun n => (some n, .keep)
      else if b == '-' then (digit? a).map fun n => (some n, .strip)
      else if b == '+' then (digit? a).map fun n => (some n, .keep)
      else none
  | _ => none
where
  /-- An indentation of one digit. -/
  digit? (d : Char) : Option Nat := if '1' ≤ d ∧ d ≤ '9' then some (d.toNat - 48) else none

/-- The lines of a literal block with this indentation, and what follows them. -/
def literalLines (indent : Nat) : (fuel : Nat) → List Char → List (List Char) × List Char
  | 0, s => ([], s)
  | _ + 1, [] => ([], [])
  | fuel + 1, s =>
      let margin := (s.take indent).takeWhile (· == ' ')
      let body := s.drop margin.length
      let line := body.takeWhile (· != '\n')
      if margin.length < indent && !line.isEmpty then ([], s)
      else
        let more := literalLines indent fuel ((body.dropWhile (· != '\n')).drop 1)
        (line :: more.1, more.2)

/-- A literal block after its vertical bar, indented by `least` at least. -/
def literal? (least : Nat) (s : List Char) : Option Scanned := do
  let head := s.takeWhile (· != '\n')
  let (given, chomp) ← literalHeader? (head.takeWhile fun c => !isSpace c && c != '#')
  let body := (s.dropWhile (· != '\n')).drop 1
  let firstIndent := ((nextLine 0 0 body).2).1
  let indent :=
    match given with
    | some n => least - 1 + n
    | none => max firstIndent (max least 1)
  let (lines, rest) := literalLines indent (s.length + 1) body
  let filled := (lines.reverse.dropWhile List.isEmpty).reverse
  let content := filled.flatMap fun line => line ++ ['\n']
  let extra := List.replicate (lines.length - filled.length) '\n'
  let text :=
    match chomp with
    | .strip => content.dropLast
    | .clip => content
    | .keep => content ++ extra
  pure ⟨text, '\n' :: rest, true⟩

end NamelistCatalog.Yaml
