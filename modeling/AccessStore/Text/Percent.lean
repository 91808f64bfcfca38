/-
Octets written with percent signs.

A percent sign with two hexadecimal digits stands for the octet that the digits write,
and every other character for the octets that encode it.  The zero octet ends a text.
What comes out need not be the octets of any text.
-/
import AccessStore.Text.Hexadecimal
import AccessStore.Text.Octets

namespace AccessStore.Text

/-- The octets that characters stand for. -/
def percentDecoded : List Char → List UInt8
  | '%' :: high :: low :: rest =>
      match hexValue? high, hexValue? low with
      | some high, some low => (high * 16 + low).toUInt8 :: percentDecoded rest
      | _, _ => octetsOfChars ['%'] ++ percentDecoded (high :: low :: rest)
  | c :: rest => octetsOfChars [c] ++ percentDecoded rest
  | [] => []

/-- The octets that characters stand for, up to the zero octet. -/
def unescape (cs : List Char) : List UInt8 := (percentDecoded cs).takeWhile (· ≠ 0)

end AccessStore.Text
