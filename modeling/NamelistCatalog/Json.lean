import NamelistCatalog.Sha256

namespace NamelistCatalog

/-- A JSON value. -/
inductive Json where
  | number (n : Nat)
  | text (s : String)
  | array (items : List Json)
  | object (fields : List (String × Json))
deriving Inhabited

namespace Json

def escapeChar (c : Char) : List Char :=
  if c == '\x22' then ['\\', '\x22']
  else if c == '\\' then ['\\', '\\']
  else if c == '\n' then ['\\', 'n']
  else if c == '\r' then ['\\', 'r']
  else if c == '\t' then ['\\', 't']
  else if c == '\x08' then ['\\', 'b']
  else if c == '\x0c' then ['\\', 'f']
  else if c.toNat < 32 then
    ['\\', 'u', '0', '0', Sha256.hexDigit (c.toNat / 16), Sha256.hexDigit (c.toNat % 16)]
  else [c]

def quote (s : String) : String :=
  String.ofList ('\x22' :: (s.toList.flatMap escapeChar ++ ['\x22']))

/-- A line break and the indentation of a depth. -/
def newline (depth : Nat) : String := String.ofList ('\n' :: List.replicate (2 * depth) ' ')

mutual

def render (depth : Nat) : Json → String
  | .number n => toString n
  | .text s => quote s
  | .array [] => "[]"
  | .array items => "[" ++ renderItems (depth + 1) items ++ newline depth ++ "]"
  | .object [] => "\x7b\x7d"
  | .object fields => "\x7b" ++ renderFields (depth + 1) fields ++ newline depth ++ "\x7d"

/-- The items of an array, each on a line of its own. -/
def renderItems (depth : Nat) : List Json → String
  | [] => ""
  | [item] => newline depth ++ render depth item
  | item :: rest => newline depth ++ render depth item ++ "," ++ renderItems depth rest

/-- The fields of an object, each on a line of its own. -/
def renderFields (depth : Nat) : List (String × Json) → String
  | [] => ""
  | [(key, value)] => newline depth ++ quote key ++ ": " ++ render depth value
  | (key, value) :: rest =>
      newline depth ++ quote key ++ ": " ++ render depth value ++ "," ++ renderFields depth rest

end

def display (value : Json) : String := render 0 value

def optional (key : String) (value : Option Json) : List (String × Json) :=
  (value.map fun v => (key, v)).toList

end Json

end NamelistCatalog
