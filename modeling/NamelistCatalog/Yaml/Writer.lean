import NamelistCatalog.Text.Blank
import NamelistCatalog.Yaml.Resolution

/-!
Writing text as a YAML scalar in a block mapping or sequence: plain where that reads back as the
same text and looks like nothing else, in single quotes otherwise, in double quotes where characters
have to be escaped, and as a literal block where there are line breaks.
-/

namespace NamelistCatalog.Yaml

/-- The ways to write a scalar. -/
inductive Style where
  | plain
  | single
  | double
  | literal
deriving DecidableEq, Repr

def isPrintable (c : Char) : Bool :=
  c == '\n' || (' ' ≤ c && c ≤ '~') || (0xA0 ≤ c.toNat && c.toNat ≠ 0xFEFF && c.toNat ≠ 0xFFFE &&
    c.toNat ≠ 0xFFFF)

/-- A character that ends a line for some reader. -/
def isBreak (c : Char) : Bool :=
  c == '\n' || c == '\r' || c == '\u0085' || c == '\u2028' || c == '\u2029'

/-- Whether a text holds something that keeps it from being plain, after the character
`previous`. -/
def hasIndicator (previous : Option Char) : List Char → Bool
  | [] => false
  | c :: rest =>
      let beforeSpace := startsBlank rest || rest.head?.any isBreak
      let afterSpace :=
        match previous with
        | none => true
        | some p => isSpace p || isBreak p
      let here :=
        match previous with
        | none =>
            isIndicator c || ((c == '?' || c == ':' || c == '-') && beforeSpace)
        | some _ => (c == ':' && beforeSpace) || (c == '#' && afterSpace)
      here || hasIndicator (some c) rest

/-- Whether a space stands in front of a line break. -/
def hasSpaceBreak : List Char → Bool
  | a :: b :: rest => (a == ' ' && isBreak b) || hasSpaceBreak (b :: rest)
  | _ => false

/-- Whether a space stands after a line break. -/
def hasBreakSpace : List Char → Bool
  | a :: b :: rest => (isBreak a && b == ' ') || hasBreakSpace (b :: rest)
  | _ => false

def allowsPlain (s : List Char) : Bool :=
  !s.any isBreak && s.head? != some ' ' && s.getLast? != some ' ' && s.all isPrintable &&
    !hasIndicator none s && !startsLikeMarker s

/-- Whether a text may be written in single quotes. -/
def allowsSingle (s : List Char) : Bool :=
  s.all isPrintable && !hasSpaceBreak s && !hasBreakSpace s

/-- Whether a text may be written as a literal block. -/
def allowsLiteral (s : List Char) : Bool :=
  s.all isPrintable && !hasSpaceBreak s && s.getLast? != some ' '

def styleOf (s : List Char) : Style :=
  if s.contains '\n' then
    if allowsLiteral s then .literal else .double
  else if !isAmbiguous s && allowsPlain s then .plain
  else if allowsSingle s then .single
  else .double

/-- The last digits of a number in hexadecimal. -/
def hexDigits : (count n : Nat) → List Char
  | 0, _ => []
  | count + 1, n =>
      hexDigits count (n / 16) ++
        [if n % 16 < 10 then Char.ofNat (48 + n % 16) else Char.ofNat (55 + n % 16)]

def escape (c : Char) : List Char :=
  match ([('\x00', '0'), ('\x07', 'a'), ('\x08', 'b'), ('\t', 't'), ('\n', 'n'), ('\x0b', 'v'),
      ('\x0c', 'f'), ('\r', 'r'), ('\x1b', 'e'), ('\x22', '\x22'), ('\\', '\\'), ('\u0085', 'N'),
      ('\u2028', 'L'), ('\u2029', 'P')] : List (Char × Char)).lookup c with
  | some letter => ['\\', letter]
  | none =>
      if isPrintable c then [c]
      else if c.toNat ≤ 0xFF then '\\' :: 'x' :: hexDigits 2 c.toNat
      else if c.toNat ≤ 0xFFFF then '\\' :: 'u' :: hexDigits 4 c.toNat
      else '\\' :: 'U' :: hexDigits 8 c.toNat

/-- The header of a literal block that holds a text. -/
def literalHeader (s : List Char) : List Char :=
  let hint := if s.head? == some ' ' || s.head? == some '\n' then ['2'] else []
  let chomp :=
    if s.getLast? != some '\n' then ['-']
    else if s == ['\n'] || s.dropLast.getLast? == some '\n' then ['+']
    else []
  '|' :: (hint ++ chomp)

/-- The lines of a literal block at an indentation. -/
def literalBody (indent : Nat) (s : List Char) : List Char :=
  let s := if s.getLast? == some '\n' then s.dropLast else s
  (Text.fields (· == '\n') s).flatMap fun line =>
    if line.isEmpty then ['\n'] else '\n' :: (List.replicate indent ' ' ++ line)

/-- A text as a scalar; the lines of a literal block have this indentation. -/
def write (indent : Nat) (s : List Char) : List Char :=
  match styleOf s with
  | .plain => s
  | .single => '\x27' :: (s.flatMap fun c => if c == '\x27' then [c, c] else [c]) ++ ['\x27']
  | .double => '\x22' :: s.flatMap escape ++ ['\x22']
  | .literal => literalHeader s ++ literalBody indent s

end NamelistCatalog.Yaml
