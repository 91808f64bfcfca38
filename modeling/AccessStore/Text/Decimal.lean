/-
Integers in decimal digits.
-/

namespace AccessStore.Text

/-- The number that decimal digits write. -/
def digitsValue (digits : List Char) : Nat := Nat.ofDigitChars 10 digits 0

/-- An integer in decimal digits, with a minus sign if it is negative. -/
def decimalChars : Int → List Char
  | .ofNat n => Nat.toDigits 10 n
  | .negSucc n => '-' :: Nat.toDigits 10 (n + 1)

/-- The text of an integer. -/
def decimal (n : Int) : String := String.ofList (decimalChars n)

/-- The integer that decimal digits write, after a minus sign if it is negative. -/
def decimal? (s : String) : Option Int :=
  let digits := if s.toList.head? = some '-' then s.toList.tail else s.toList
  if digits ≠ [] ∧ digits.all Char.isDigit = true then
    some (if s.toList.head? = some '-' then -(digitsValue digits : Int) else digitsValue digits)
  else none

/-- Reading the digits of a number gives the number back. -/
theorem digitsValue_toDigits (n : Nat) : digitsValue (Nat.toDigits 10 n) = n :=
  Nat.ofDigitChars_toDigits (by decide) (by decide)

/-- The digits of a number are digits. -/
theorem isDigit_of_mem_toDigits {n : Nat} {c : Char} (h : c ∈ Nat.toDigits 10 n) :
    c.isDigit = true :=
  Nat.isDigit_of_mem_toDigits (by decide) (by decide) h

end AccessStore.Text
