import NamelistCatalog.Yaml.Scalar

/-!
Reading a YAML document: block and flow collections, scalars, comments and one document marker.
Anchors, aliases, tags, directives and folded blocks are not read.

Every function that calls itself takes fuel, which the length of the text bounds.
-/

namespace NamelistCatalog.Yaml

/-- Where reading stands: what follows, its column, and whether it is the first on its line. -/
structure Cursor where
  rest : List Char
  column : Nat
  isFresh : Bool

/-- Skips spaces, comments and line breaks. A tab in front of the first token of a line is no
indentation. -/
def skipFrom (inComment : Bool) (column : Nat) (isFresh : Bool) : List Char → Option Cursor
  | [] => some ⟨[], 0, true⟩
  | '\n' :: rest => skipFrom false 0 true rest
  | c :: rest =>
      if inComment then skipFrom true column isFresh rest
      else if c == ' ' then skipFrom false (column + 1) isFresh rest
      else if c == '\t' then if isFresh then none else skipFrom false (column + 1) false rest
      else if c == '#' then skipFrom true column isFresh rest
      else some ⟨c :: rest, column, isFresh⟩

def Cursor.skip (c : Cursor) : Option Cursor := skipFrom false c.column c.isFresh c.rest

def Cursor.skipSpaces (c : Cursor) : Cursor :=
  let spaces := c.rest.takeWhile isSpace
  ⟨c.rest.drop spaces.length, c.column + spaces.length, c.isFresh⟩

def Cursor.atEnd (c : Cursor) : Bool := c.rest.isEmpty || (c.isFresh && isMarker c.column c.rest)

/-- Whether the line ends here, apart from a comment. -/
def Cursor.atLineEnd (c : Cursor) : Bool :=
  c.rest.isEmpty || c.rest.head? == some '\n' || c.rest.head? == some '#'

/-- Whether an item of a block sequence starts here. -/
def Cursor.atDash (c : Cursor) : Bool := c.rest.head? == some '-' && startsBlank (c.rest.drop 1)

/-- Skips spaces, comments and line breaks in a flow collection. -/
def skipFlow (inComment : Bool) : List Char → List Char
  | [] => []
  | c :: rest =>
      if c == '\n' then skipFlow false rest
      else if inComment then skipFlow true rest
      else if isSpace c then skipFlow false rest
      else if c == '#' then skipFlow true rest
      else c :: rest

def scalar? (inFlow : Bool) (least : Nat) (s : List Char) : Option (Node × Scanned) :=
  match s with
  | [] => none
  | c :: rest =>
      if c == '\x27' then
        (singleQuoted s.length rest).map fun r => (.scalar r.text false, r)
      else if c == '\x22' then
        (doubleQuoted s.length rest).map fun r => (.scalar r.text false, r)
      else if isIndicator c || ((c == '-' || c == '?' || c == ':') && startsBlank rest) ||
          (inFlow && (c == '?' || c == ':')) then none
      else
        let r := plain inFlow least (s.length + 1) s
        some (.scalar r.text true, r)

mutual

/-- A node of a flow collection, and what follows. -/
def flowNode : (fuel : Nat) → List Char → Option (Node × List Char)
  | 0, _ => none
  | fuel + 1, '[' :: rest =>
      (flowItems fuel (skipFlow false rest)).map fun r => (.sequence r.1, r.2)
  | fuel + 1, '\x7b' :: rest =>
      (flowPairs fuel (skipFlow false rest)).map fun r => (.mapping r.1, r.2)
  | _ + 1, s => (scalar? true 0 s).map fun r => (r.1, r.2.rest)

/-- A value after its colon, which may be missing. -/
def flowValue : (fuel : Nat) → List Char → Option (Node × List Char)
  | 0, _ => none
  | fuel + 1, s =>
      match s with
      | [] => none
      | c :: _ =>
          if c == ',' || c == ']' || c == '\x7d' then some (.empty, s) else flowNode fuel s

/-- The items of a flow sequence and what follows its end. -/
def flowItems : (fuel : Nat) → List Char → Option (List Node × List Char)
  | 0, _ => none
  | _ + 1, ']' :: rest => some ([], rest)
  | fuel + 1, s => do
      let (node, rest) ← flowNode fuel s
      let (item, rest) ←
        match skipFlow false rest with
        | ':' :: rest =>
            (flowValue fuel (skipFlow false rest)).map fun r => (.mapping [(node, r.1)], r.2)
        | rest => some (node, rest)
      match skipFlow false rest with
      | ',' :: rest =>
          let (items, rest) ← flowItems fuel (skipFlow false rest)
          pure (item :: items, rest)
      | ']' :: rest => pure ([item], rest)
      | _ => none

/-- The pairs of a flow mapping and what follows its end. -/
def flowPairs : (fuel : Nat) → List Char → Option (List (Node × Node) × List Char)
  | 0, _ => none
  | _ + 1, '\x7d' :: rest => some ([], rest)
  | fuel + 1, s => do
      let (key, rest) ← flowNode fuel s
      let (value, rest) ←
        match skipFlow false rest with
        | ':' :: rest => flowValue fuel (skipFlow false rest)
        | rest => some (.empty, rest)
      match skipFlow false rest with
      | ',' :: rest =>
          let (pairs, rest) ← flowPairs fuel (skipFlow false rest)
          pure ((key, value) :: pairs, rest)
      | '\x7d' :: rest => pure ([(key, value)], rest)
      | _ => none

end

/-- A node that is no block collection, and what follows. -/
def simpleNode (least : Nat) (s : List Char) : Option (Node × Scanned) :=
  match s with
  | '[' :: _ => flow
  | '\x7b' :: _ => flow
  | '|' :: rest => (literal? least rest).map fun r => (.scalar r.text false, r)
  | _ => scalar? false least s
where
  /-- A flow collection. -/
  flow : Option (Node × Scanned) :=
    (flowNode (2 * s.length + 2) s).map fun r =>
      (r.1, ⟨[], r.2, (s.take (s.length - r.2.length)).contains '\n'⟩)

/-- What follows the colon after a key, if a colon is there. -/
def afterColon? (s : List Char) : Option (List Char) :=
  match s.dropWhile isSpace with
  | ':' :: rest => if startsBlank rest then some rest else none
  | _ => none

mutual

/-- A node at the cursor. Further lines of a scalar are indented by `least` at least, and a block
collection may start here when `isOpen` holds. -/
def blockNode : (fuel : Nat) → (least : Nat) → (isOpen : Bool) → Cursor → Option (Node × Cursor)
  | 0, _, _, _ => none
  | fuel + 1, least, isOpen, c =>
      if c.atDash then
        if isOpen then
          (blockItems fuel c.column c).map fun r => (.sequence r.1, r.2)
        else none
      else do
        let (node, scanned) ← simpleNode least c.rest
        match afterColon? scanned.rest with
        | some _ =>
            if isOpen && !scanned.isMultiline then
              (blockPairs fuel c.column c).map fun r => (.mapping r.1, r.2)
            else none
        | none => pure (node, ⟨scanned.rest, c.column, false⟩)

/-- The value of a key in a block mapping at this column, after its colon. -/
def blockValue : (fuel : Nat) → (column : Nat) → List Char → Option (Node × Cursor)
  | 0, _, _ => none
  | fuel + 1, column, s => do
      let inline := Cursor.skipSpaces ⟨s, column + 1, false⟩
      if inline.atLineEnd then
        let next ← inline.skip
        if next.atEnd || next.column < column || (next.column == column && !next.atDash) then
          pure (.empty, next)
        else if next.column == column then
          (blockItems fuel column next).map fun r => (.sequence r.1, r.2)
        else blockNode fuel (column + 1) true next
      else blockNode fuel (column + 1) false inline

/-- The pairs of a block mapping at this column. -/
def blockPairs : (fuel : Nat) → (column : Nat) → Cursor → Option (List (Node × Node) × Cursor)
  | 0, _, _ => none
  | fuel + 1, column, c => do
      let (key, scanned) ← simpleNode (column + 1) c.rest
      if scanned.isMultiline then none
      else
        let after ← afterColon? scanned.rest
        let (value, rest) ← blockValue fuel column after
        let next ← rest.skip
        if !next.isFresh then none
        else if next.atEnd || next.column < column then pure ([(key, value)], next)
        else if next.column == column && !next.atDash then
          let (pairs, rest) ← blockPairs fuel column next
          pure ((key, value) :: pairs, rest)
        else none

/-- The items of a block sequence at this column. -/
def blockItems : (fuel : Nat) → (column : Nat) → Cursor → Option (List Node × Cursor)
  | 0, _, _ => none
  | fuel + 1, column, c => do
      let inline := Cursor.skipSpaces ⟨c.rest.drop 1, column + 1, false⟩
      let (item, rest) ←
        if inline.atLineEnd then do
          let next ← inline.skip
          if next.atEnd || next.column ≤ column then pure (.empty, next)
          else blockNode fuel (column + 1) true next
        else blockNode fuel (column + 1) true inline
      let next ← rest.skip
      if !next.isFresh then none
      else if next.atEnd || next.column < column then pure ([item], next)
      else if next.column == column then
        if next.atDash then
          let (items, rest) ← blockItems fuel column next
          pure (item :: items, rest)
        else pure ([item], next)
      else none

end

/-- The text with every line break written as a line feed. -/
def unifyBreaks : List Char → List Char
  | [] => []
  | '\r' :: '\n' :: rest => '\n' :: unifyBreaks rest
  | c :: rest =>
      (if c == '\r' || c == '\u0085' || c == '\u2028' || c == '\u2029' then '\n' else c) ::
        unifyBreaks rest

def isAllowed (c : Char) : Bool :=
  c == '\t' || c == '\n' || c == '\r' || (' ' ≤ c && c ≤ '~') || c == '\u0085' ||
    (0xA0 ≤ c.toNat && c.toNat ≠ 0xFEFF && c.toNat ≠ 0xFFFE && c.toNat ≠ 0xFFFF)

/-- Whether nothing but spaces, comments and the end of the document follows. -/
def isFinished (c : Cursor) : Bool :=
  if c.rest.isEmpty then true
  else if ['.', '.', '.'].isPrefixOf c.rest && isMarker c.column c.rest then
    match skipFrom false 3 false (c.rest.drop 3) with
    | some after => after.rest.isEmpty
    | none => false
  else false

/-- The document at a cursor. `isOpen` tells whether a block collection may start there. -/
def document (isOpen : Bool) (c : Cursor) : Option Node :=
  if c.atEnd then if isFinished c then some .empty else none
  else do
    let (node, rest) ← blockNode (4 * c.rest.length + 8) 0 isOpen c
    let next ← rest.skip
    if next.isFresh && isFinished next then pure node else none

def read (text : List Char) : Option Node :=
  let s := if text.head? == some '\uFEFF' then text.drop 1 else text
  if !s.all isAllowed then none
  else do
    let start ← skipFrom false 0 true (unifyBreaks s)
    if start.atEnd && ['-', '-', '-'].isPrefixOf start.rest then
      let next ← skipFrom false 3 false (start.rest.drop 3)
      document next.isFresh next
    else document true start

end NamelistCatalog.Yaml
