import NamelistCatalog.Statement.Line
import NamelistCatalog.Text.Search

/-!
Statements: a line of code that ends in an ampersand goes on at the next line of code, which may
repeat the ampersand in front. Blank lines and comment lines in between are skipped.
-/

namespace NamelistCatalog

namespace Statement

/-- The code of a line that continues a statement, without the ampersand in front. -/
def resumedCode (line : Line) : List Char :=
  match Text.trim line.code with
  | '&' :: rest => Text.trimStart rest
  | code => code

/-- The code in front of an ampersand at its end. -/
def beforeContinuation? (code : List Char) : Option (List Char) :=
  (Text.dropEnd? ['&'] code).map Text.trimEnd

/-- The pieces of a statement that goes on in these lines, and the number of lines that they
take. -/
def continuation : List Line → List (List Char) × Nat
  | [] => ([], 0)
  | line :: rest =>
      if line.isCodeless then
        let more := continuation rest
        (more.1, more.2 + 1)
      else
        match beforeContinuation? (resumedCode line) with
        | some piece =>
            let more := continuation rest
            (piece :: more.1, more.2 + 1)
        | none => ([resumedCode line], 1)

/-- The statement that starts in `first`, and the number of lines of `rest` that it takes. Its
pieces are joined by single spaces. -/
def join (first : Line) (rest : List Line) : List Char × Nat :=
  let code := Text.trim first.code
  match beforeContinuation? code with
  | some piece =>
      let more := continuation rest
      (Text.trim (Text.joinWith [' '] (piece :: more.1)), more.2)
  | none => (code, 0)

theorem continuation_le (rest : List Line) : (continuation rest).2 ≤ rest.length := by
  induction rest with
  | nil => exact Nat.le_refl 0
  | cons line rest ih =>
      unfold continuation
      split
      · exact Nat.succ_le_succ ih
      · split
        · exact Nat.succ_le_succ ih
        · simp

theorem join_le (first : Line) (rest : List Line) : (join first rest).2 ≤ rest.length := by
  unfold join
  simp only
  split
  · exact continuation_le rest
  · exact Nat.zero_le _

end Statement

/-- A statement with the number of its first line. -/
structure CodeLine where
  number : Nat
  text : List Char
deriving DecidableEq, Repr

namespace CodeLine

/-- The statements of lines of which the first has this number. -/
def ofLinesFrom (number : Nat) : List Line → List CodeLine
  | [] => []
  | line :: rest =>
      if line.isCodeless then ofLinesFrom (number + 1) rest
      else
        let joined := Statement.join line rest
        let more := ofLinesFrom (number + 1 + joined.2) (rest.drop joined.2)
        if joined.1.isEmpty then more else ⟨number, joined.1⟩ :: more
termination_by lines => lines.length

/-- The statements of a document, without its blank lines and comments. -/
def ofLines (lines : List Line) : List CodeLine := ofLinesFrom 1 lines

end CodeLine

end NamelistCatalog
