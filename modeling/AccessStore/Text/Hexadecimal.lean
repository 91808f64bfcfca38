/-
Hexadecimal digits.
-/

namespace AccessStore.Text

/-- A hexadecimal digit, lower case. -/
def hexDigit (n : Nat) : Char :=
  if n < 10 then Char.ofNat ('0'.toNat + n) else Char.ofNat ('a'.toNat + (n - 10))

/-- The value of a hexadecimal digit. -/
def hexValue? (c : Char) : Option Nat :=
  if c.isDigit then some (c.toNat - '0'.toNat)
  else if 'a' ≤ c && c ≤ 'f' then some (c.toNat - 'a'.toNat + 10)
  else if 'A' ≤ c && c ≤ 'F' then some (c.toNat - 'A'.toNat + 10)
  else none

/-- The number that hexadecimal digits write; what follows them does not matter. -/
def hexNumber (cs : List Char) : Nat :=
  ((cs.map hexValue?).takeWhile Option.isSome).foldl (fun n digit => n * 16 + digit.getD 0) 0

end AccessStore.Text
