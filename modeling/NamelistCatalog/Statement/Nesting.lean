import NamelistCatalog.Statement.Line

namespace NamelistCatalog

/-- How deep a place in a text is nested: in which quote, and in how many brackets. -/
structure Nesting where
  quote : Option Char := none
  depth : Nat := 0
deriving DecidableEq, Repr

namespace Nesting

def isOpening (c : Char) : Bool := c == '(' || c == '['

def isClosing (c : Char) : Bool := c == ')' || c == ']'

def isMarker (c : Char) : Bool := isQuote c || isOpening c || isClosing c

/-- The nesting after a character. Brackets in quotes do not count, the two kinds of brackets are
not told apart, and a closing bracket too many is ignored. -/
def next (n : Nesting) (c : Char) : Nesting :=
  { quote := nextQuote n.quote c
    depth :=
      if n.quote.isSome then n.depth
      else if isOpening c then n.depth + 1
      else if isClosing c then n.depth - 1
      else n.depth }

def isTop (n : Nesting) : Bool := n.quote.isNone && n.depth == 0

/-- Cuts a text that starts in nesting `n` at the separators outside quotes and brackets: the first
part, and the parts after each cut. -/
def cutFrom (sep : Char) (n : Nesting) : List Char → List Char × List (List Char)
  | [] => ([], [])
  | c :: rest =>
      let parts := cutFrom sep (n.next c) rest
      if n.isTop && c == sep && !isMarker c then ([], parts.1 :: parts.2)
      else (c :: parts.1, parts.2)

end Nesting

/-- The parts between the separators outside quotes and brackets. -/
def splitTopLevel (sep : Char) (s : List Char) : List (List Char) :=
  (Nesting.cutFrom sep {} s).1 :: (Nesting.cutFrom sep {} s).2

/-- The text up to the parenthesis that closes the current one, in which `depth` more are open. -/
def untilClosed? (depth : Nat) : List Char → Option (List Char)
  | [] => none
  | c :: rest =>
      if c == '(' then (untilClosed? (depth + 1) rest).map (c :: ·)
      else if c == ')' then
        match depth with
        | 0 => some []
        | d + 1 => (untilClosed? d rest).map (c :: ·)
      else (untilClosed? depth rest).map (c :: ·)

/-- What stands before the first opening parenthesis, and what stands between it and the one that
closes it. -/
def splitParenthesized? (s : List Char) : Option (List Char × List Char) :=
  match s.dropWhile (· != '(') with
  | [] => none
  | _ :: rest => (untilClosed? 0 rest).map fun inside => (s.takeWhile (· != '('), inside)

/-- The rank that an index or dimension list describes; ranks above 255 are not told apart. -/
def rankOf (indexList : List Char) : UInt8 :=
  UInt8.ofNat (min (splitTopLevel ',' indexList).length 255)

theorem joinWith_splitTopLevel (sep : Char) (s : List Char) :
    Text.joinWith [sep] (splitTopLevel sep s) = s := by
  suffices h : ∀ n : Nesting, Text.joinWith [sep]
      ((Nesting.cutFrom sep n s).1 :: (Nesting.cutFrom sep n s).2) = s from h {}
  induction s with
  | nil => intro n; rfl
  | cons c rest ih =>
      intro n
      have hrest := ih (n.next c)
      simp only [Nesting.cutFrom]
      split
      · rename_i h
        have hc : c = sep := by simp_all
        subst hc
        simp only [Text.joinWith, hrest, List.nil_append]
        rfl
      · cases hparts : (Nesting.cutFrom sep (n.next c) rest).2 with
        | nil =>
            rw [hparts] at hrest
            simp only [Text.joinWith] at hrest ⊢
            rw [hrest]
        | cons part more =>
            rw [hparts] at hrest
            simp only [Text.joinWith] at hrest ⊢
            rw [List.cons_append, List.cons_append, hrest]

end NamelistCatalog
