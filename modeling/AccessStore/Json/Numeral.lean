/-
Spelled numbers.

A document's number is kept as it was spelled.  Two questions are asked of a
spelling: which unsigned integer of 64 bits it writes, if any, and whether it is small
enough to be held as a double at all.  The second is not quite arithmetic on the
number written: the digits are gathered only while they fit in 64 bits, and the two
factors, significand and power of ten, are each the nearest double, so the limit is
where their product reaches the first value that rounds to infinity.
-/
import AccessStore.Text.Decimal

namespace AccessStore.Json

open Text (digitsValue)

/-- A number as spelled: sign, digits before and after the point, exponent. -/
structure Numeral where
  /-- A minus sign stands in front. -/
  negative : Bool
  /-- The digits before the point. -/
  whole : List Char
  /-- The digits after the point; none when there is no point. -/
  fraction : List Char
  /-- The exponent, if any: whether it is negative, and its digits. -/
  exponent : Option (Bool × List Char)
  deriving DecidableEq, Repr

namespace Numeral

/-- Take a spelling apart; it is expected to follow the grammar of numbers. -/
def ofSpelling (spelling : List Char) : Numeral :=
  let unsigned := if spelling.head? = some '-' then spelling.tail else spelling
  let afterWhole := unsigned.dropWhile Char.isDigit
  let afterPoint := if afterWhole.head? = some '.' then afterWhole.tail else []
  let afterFraction :=
    if afterWhole.head? = some '.' then afterPoint.dropWhile Char.isDigit else afterWhole
  { negative := spelling.head? = some '-'
    whole := unsigned.takeWhile Char.isDigit
    fraction := afterPoint.takeWhile Char.isDigit
    exponent :=
      match afterFraction with
      | [] => none
      | _ :: '-' :: digits => some (true, digits)
      | _ :: '+' :: digits => some (false, digits)
      | _ :: digits => some (false, digits) }

/-- The unsigned integer of 64 bits that is written, without sign, point or exponent. -/
def unsigned64? (n : Numeral) : Option Nat :=
  if !n.negative && n.fraction.isEmpty && n.exponent.isNone && digitsValue n.whole < 1 <<< 64 then
    some (digitsValue n.whole)
  else
    none

/-! ### The range of doubles -/

/-- A natural number rounded to 53 significant bits, a half going to the even neighbour. -/
def nearestDouble (n : Nat) : Nat :=
  let shift := n.log2 - 52
  let unit := 1 <<< shift
  let quotient := n / unit
  let remainder := n % unit
  let roundsUp := 2 * remainder > unit || (2 * remainder = unit && quotient % 2 = 1)
  (if roundsUp then quotient + 1 else quotient) * unit

/-- The least natural number that rounds to infinity. -/
def infinityThreshold : Nat := 1 <<< 1024 - 1 <<< 970

/-- Gather digits while the significand stays below 2^64: the significand, and the digits
that found no room. -/
def gather : Nat → List Char → Nat × List Char
  | significand, [] => (significand, [])
  | significand, d :: rest =>
      let extended := significand * 10 + (d.toNat - '0'.toNat)
      if extended < 1 <<< 64 then gather extended rest else (significand, d :: rest)

/-- The significand times this power of ten is too large for a double. -/
def overflows (significand : Nat) (power : Int) : Bool :=
  significand ≠ 0 &&
    (power > 308 ||
      (0 ≤ power &&
        infinityThreshold ≤ nearestDouble significand * nearestDouble (Nat.pow 10 power.toNat)))

/-- The number can be held as a double, perhaps rounded, perhaps to zero. -/
def inRange (n : Numeral) : Bool :=
  let (head, dropped) := gather 0 n.whole
  let (significand, unread) := gather head n.fraction
  let power : Int := dropped.length - (n.fraction.length - unread.length : Nat)
  match n.exponent with
  | none => !overflows significand power
  | some (negative, digits) =>
      if digitsValue digits < 1 <<< 31 then
        !overflows significand (if negative then power - digitsValue digits
          else power + digitsValue digits)
      else
        significand = 0 || negative

end Numeral

end AccessStore.Json
