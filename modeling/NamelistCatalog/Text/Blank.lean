namespace NamelistCatalog.Text

/-- The characters with the Unicode property White_Space. Zero-width spaces and the information
separators U+001C to U+001F do not have it. -/
def isBlank (c : Char) : Bool :=
  (9 ≤ c.toNat && c.toNat ≤ 13) || c.toNat == 0x20 || c.toNat == 0x85 || c.toNat == 0xA0 ||
    c.toNat == 0x1680 || (0x2000 ≤ c.toNat && c.toNat ≤ 0x200A) || c.toNat == 0x2028 ||
    c.toNat == 0x2029 || c.toNat == 0x202F || c.toNat == 0x205F || c.toNat == 0x3000

def trimStart (s : List Char) : List Char := s.dropWhile isBlank

/-- Drops the trailing characters of which `p` holds. -/
def dropEndWhile {α : Type} (p : α → Bool) (s : List α) : List α :=
  (s.reverse.dropWhile p).reverse

def trimEnd (s : List Char) : List Char := dropEndWhile isBlank s

def trim (s : List Char) : List Char := trimEnd (trimStart s)

def isBlankText (s : List Char) : Bool := s.all isBlank

/-- Cuts the text at every character of which `p` holds: the first part, and the parts after each
cut. -/
def cutAt {α : Type} (p : α → Bool) (s : List α) : List α × List (List α) :=
  s.foldr
    (fun c parts => if p c then ([], parts.1 :: parts.2) else (c :: parts.1, parts.2)) ([], [])

/-- The parts between the characters of which `p` holds; always one more than there are such
characters. -/
def fields {α : Type} (p : α → Bool) (s : List α) : List (List α) :=
  (cutAt p s).1 :: (cutAt p s).2

/-- The maximal runs of characters that are not blank. -/
def words (s : List Char) : List (List Char) := (fields isBlank s).filter fun w => !w.isEmpty

/-- The texts one after the other, with `sep` between neighbours. -/
def joinWith {α : Type} (sep : List α) : List (List α) → List α
  | [] => []
  | [s] => s
  | s :: t :: rest => s ++ sep ++ joinWith sep (t :: rest)

theorem isBlankText_cons (c : Char) (s : List Char) :
    isBlankText (c :: s) = (isBlank c && isBlankText s) := rfl

section Cuts

variable {α : Type} (p : α → Bool)

@[simp] theorem cutAt_nil : cutAt p [] = ([], []) := rfl

theorem cutAt_cons (c : α) (s : List α) :
    cutAt p (c :: s) =
      if p c then ([], (cutAt p s).1 :: (cutAt p s).2) else (c :: (cutAt p s).1, (cutAt p s).2) :=
  rfl

end Cuts

end NamelistCatalog.Text
