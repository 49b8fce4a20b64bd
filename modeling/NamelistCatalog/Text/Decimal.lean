namespace NamelistCatalog.Text

/-- The value of a run of decimal digits, the most significant first. -/
def decimalValue (digits : List Char) : Nat :=
  digits.foldl (fun n c => 10 * n + (c.toNat - 48)) 0

def maxCount : Nat := 18446744073709551615

/-- The value of a non-empty run of digits, when it is no larger than the largest count. -/
def count? (digits : List Char) : Option Nat :=
  if digits.isEmpty || !digits.all Char.isDigit then none
  else if decimalValue digits ≤ maxCount then some (decimalValue digits) else none

/-- A count in decimal, with an optional plus sign and nothing around it. -/
def signedCount? : List Char → Option Nat
  | '+' :: digits => count? digits
  | digits => count? digits

theorem decimalValue_append_digit (digits : List Char) (c : Char) :
    decimalValue (digits ++ [c]) = 10 * decimalValue digits + (c.toNat - 48) := by
  simp [decimalValue]

example : signedCount? ['+', '0', '3'] = some 3 := by decide
example : signedCount? ['+'] = none := by decide
example : signedCount? [' ', '3'] = none := by decide

end NamelistCatalog.Text
