import RulesText.Text.Basic

/-!
# Hexadecimal numbers
-/

namespace RulesText.Text

/-- The value of a hexadecimal digit of either case. -/
def hexDigit? (c : Char) : Option Nat :=
  if c.isDigit then some (c.toNat - '0'.toNat)
  else if 'a' ≤ c && c ≤ 'f' then some (c.toNat - 'a'.toNat + 10)
  else if 'A' ≤ c && c ≤ 'F' then some (c.toNat - 'A'.toNat + 10)
  else none

/-- The number that one hexadecimal digit or more stand for. -/
def hexNumber? (digits : Text) : Option Nat := do
  let values ← digits.mapM hexDigit?
  if digits.isEmpty then failure
  return values.foldl (fun n d => 16 * n + d) 0

end RulesText.Text
