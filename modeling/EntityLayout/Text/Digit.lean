/-
# Digits

The values of digits, and the numbers that lists of digits stand for.  The letters of
hexadecimal digits may be small or capital.
-/

namespace EntityLayout.Text

/-- The value of a decimal digit. -/
def digitValue (c : Char) : Nat := c.toNat - '0'.toNat

/-- The value of a hexadecimal digit. -/
def hexValue? (c : Char) : Option Nat :=
  if '0' ≤ c ∧ c ≤ '9' then some (c.toNat - '0'.toNat)
  else if 'a' ≤ c ∧ c ≤ 'f' then some (c.toNat - 'a'.toNat + 10)
  else if 'A' ≤ c ∧ c ≤ 'F' then some (c.toNat - 'A'.toNat + 10)
  else none

/-- The number that digits of a base stand for; the base is at most 16. -/
def ofDigits (base : Nat) (ds : List Char) : Nat :=
  ds.foldl (fun n c => base * n + (hexValue? c).getD 0) 0

example : ofDigits 10 ['4', '0', '2'] = 402 ∧ ofDigits 16 ['f', 'F'] = 255 ∧ ofDigits 2 [] = 0 := by
  decide

end EntityLayout.Text
