/-
Versions of records.

A version is an integer that the database assigns: one when a record is added, one
more with each write.  Callers hand versions around as texts.  A text is a version
when, with the blank characters at its ends taken off, it is decimal digits after at
most one plus sign and the number is from 1 to 2^63 - 1.

Damaged rows can carry any integer, so the type does not exclude numbers below one;
no text names them.
-/
import AccessStore.Json.Decoder
import AccessStore.Json.Value
import AccessStore.Text.Blank
import AccessStore.Text.Decimal

namespace AccessStore

/-- The version of a stored record. -/
structure Version where
  number : Int
  deriving DecidableEq, Repr

namespace Version

/-- The version of a record that has just been added. -/
def initial : Version := ⟨1⟩

/-- The version after one more write. -/
def next (v : Version) : Version := ⟨v.number + 1⟩

/-- The largest version that can be stored. -/
def largest : Nat := 1 <<< 63 - 1

/-- Versions are compared as numbers, never as texts. -/
instance : Ord Version := ⟨fun a b => compare a.number b.number⟩

/-- The number in decimal digits. -/
def text (v : Version) : String := Text.decimal v.number

/-- The version that trimmed characters name. -/
def ofTrimmed? (cs : List Char) : Option Version :=
  let digits := if cs.head? = some '+' then cs.tail else cs
  let n := Text.digitsValue digits
  if digits ≠ [] ∧ digits.all Char.isDigit = true ∧ 0 < n ∧ n ≤ largest then some ⟨n⟩ else none

/-- The version that a text names. -/
def ofText? (s : String) : Option Version :=
  ofTrimmed? (Text.trimChars s.toList)

/-- The version that a text names; the fault carries the text untrimmed. -/
def parse (s : String) : Except Json.Fault Version :=
  match ofText? s with
  | some v => .ok v
  | none => .error (.invalidVersion s)

/-- In documents a version is a text. -/
def decode : Json.Decoder Version := fun node => do
  parse (← Json.Decoder.text node)

/-- In documents a version is a text. -/
def value (v : Version) : Json.Value := .text v.text

end Version

end AccessStore
