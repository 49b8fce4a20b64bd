import NamelistCatalog.Text.Decimal
import NamelistCatalog.Yaml.Scalar

namespace NamelistCatalog.Yaml

/-- Whether a plain scalar stands for nothing. -/
def isNothing (s : List Char) : Bool :=
  ["", "~", "null", "Null", "NULL"].contains (String.ofList s)

/-- The truth value that a plain scalar stands for. -/
def truthValue? (s : List Char) : Option Bool :=
  let word := String.ofList s
  if ["true", "True", "TRUE"].contains word then some true
  else if ["false", "False", "FALSE"].contains word then some false
  else none

/-- A text without one sign in front, and whether that sign is a minus. -/
def unsigned : List Char → Bool × List Char
  | '+' :: rest => (false, rest)
  | '-' :: rest => (true, rest)
  | s => (false, s)

/-- The number that digits in a base stand for. -/
def numeral? (base : Nat) (digits : List Char) : Option Nat := do
  let values ← digits.mapM hexValue?
  if !values.isEmpty && values.all (· < base) then
    pure (values.foldl (fun n d => base * n + d) 0)
  else none

/-- The number without a sign in base sixteen, eight or two, marked by the letter `x`, `o` or `b`
after a zero. -/
def basedNumeral? : List Char → Option Nat
  | '0' :: 'x' :: digits => numeral? 16 digits
  | '0' :: 'o' :: digits => numeral? 8 digits
  | '0' :: 'b' :: digits => numeral? 2 digits
  | _ => none

/-- Whether a text is a whole number in a marked base, of 128 bits at most. -/
def isBasedInteger (s : List Char) : Bool :=
  match unsigned s with
  | (isNegative, digits) =>
      match basedNumeral? digits with
      | some n => n < (if isNegative then 1 <<< 127 + 1 else 1 <<< 128)
      | none => false

/-- A decimal number without a sign. -/
structure Decimal where
  /-- The digits before and after the point. -/
  digits : List Char
  /-- The power of ten that the digits are multiplied by. -/
  exponent : Int

namespace Decimal

/-- The exponent after the digits of a number, zero when there is none. -/
def exponent? : List Char → Option Int
  | [] => some 0
  | c :: rest =>
      let (isNegative, digits) := unsigned rest
      if (c == 'e' || c == 'E') && !digits.isEmpty && digits.all Char.isDigit then
        let n : Int := Text.decimalValue digits
        some (if isNegative then -n else n)
      else none

def ofText? (s : List Char) : Option Decimal := do
  let whole := s.takeWhile Char.isDigit
  let (part, rest) :=
    match s.dropWhile Char.isDigit with
    | '.' :: rest => (rest.takeWhile Char.isDigit, rest.dropWhile Char.isDigit)
    | rest => ([], rest)
  if whole.isEmpty && part.isEmpty then none
  else pure { digits := whole ++ part, exponent := (← exponent? rest) - part.length }

/-- The least number that rounds to infinity in double precision. -/
def leastInfinite : Nat := 1 <<< 1024 - 1 <<< 970

/-- Whether a number is finite in double precision. The number of its digits decides unless it comes
near the bound. -/
def isFinite (d : Decimal) : Bool :=
  let n := Text.decimalValue d.digits
  let magnitude : Int := (d.digits.dropWhile (· == '0')).length + d.exponent
  if n = 0 || magnitude ≤ 308 then true
  else if 309 < magnitude then false
  else if 0 ≤ d.exponent then n * Nat.pow 10 d.exponent.toNat < leastInfinite
  else n < leastInfinite * Nat.pow 10 (-d.exponent).toNat

end Decimal

/-- Whether a text is a number with a decimal spelling, or one of the words for infinity and for
what is not a number. -/
def isDecimal (s : List Char) : Bool :=
  [".nan", ".NaN", ".NAN"].contains (String.ofList s) ||
    [".inf", ".Inf", ".INF"].contains (String.ofList (unsigned s).2) ||
    (Decimal.ofText? (unsigned s).2).any Decimal.isFinite

/-- Whether a text is a run of digits that starts with a zero in front of another digit. -/
def hasLeadingZero (s : List Char) : Bool :=
  match (unsigned s).2 with
  | '0' :: c :: rest => (c :: rest).all Char.isDigit
  | _ => false

/-- Whether a text, written plain, could be taken for something other than itself. -/
def isAmbiguous (s : List Char) : Bool :=
  isNothing s || (truthValue? s).isSome || isBasedInteger s || isDecimal s || hasLeadingZero s

example : isAmbiguous ['1', '.', '5'] = true := by decide
example : isAmbiguous ['y'] = false := by decide
example : isAmbiguous ['1', '.', '2', '.', '3'] = false := by decide

end NamelistCatalog.Yaml
