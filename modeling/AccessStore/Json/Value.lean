/-
Writing JSON.

Documents are written without white space.  In a text a quote, a backslash and the
characters below U+0020 are escaped, by a letter of their own where there is one and
otherwise as `\u00` and two lower-case digits; every other character stands for
itself.
-/
import AccessStore.Text.Decimal
import AccessStore.Text.Hexadecimal

namespace AccessStore.Json

/-- What this library writes. -/
inductive Value
  | null
  | flag (value : Bool)
  | number (n : Int)
  | text (s : String)
  | list (items : List Value)
  | object (members : List (String × Value))
  deriving Inhabited, Repr

/-- A character as it is written between quotes. -/
def escape (c : Char) : List Char :=
  if c = '"' then ['\\', '"']
  else if c = '\\' then ['\\', '\\']
  else if c = '\x08' then ['\\', 'b']
  else if c = '\x0c' then ['\\', 'f']
  else if c = '\n' then ['\\', 'n']
  else if c = '\r' then ['\\', 'r']
  else if c = '\t' then ['\\', 't']
  else if c.toNat < 0x20 then
    ['\\', 'u', '0', '0', Text.hexDigit (c.toNat / 16), Text.hexDigit (c.toNat % 16)]
  else [c]

/-- A text as it is written, with its quotes. -/
def quoted (s : String) : List Char := '"' :: (s.toList.flatMap escape ++ ['"'])

namespace Value

mutual
/-- The characters of a value. -/
def chars : Value → List Char
  | null => ['n', 'u', 'l', 'l']
  | flag true => ['t', 'r', 'u', 'e']
  | flag false => ['f', 'a', 'l', 's', 'e']
  | number n => Text.decimalChars n
  | text s => quoted s
  | list [] => ['[', ']']
  | list (item :: rest) => '[' :: (chars item ++ itemChars rest)
  | object [] => ['{', '}']
  | object ((name, value) :: rest) =>
      '{' :: (quoted name ++ ':' :: (chars value ++ memberChars rest))
/-- The characters of the items after the first, and the closing bracket. -/
def itemChars : List Value → List Char
  | [] => [']']
  | item :: rest => ',' :: (chars item ++ itemChars rest)
/-- The characters of the members after the first, and the closing brace. -/
def memberChars : List (String × Value) → List Char
  | [] => ['}']
  | (name, value) :: rest => ',' :: (quoted name ++ ':' :: (chars value ++ memberChars rest))
end

/-- The text of a value. -/
def render (v : Value) : String := String.ofList v.chars

/-- A list of texts. -/
def texts (items : List String) : Value := list (items.map text)

/-- A text, or null where there is none. -/
def textOrNull : Option String → Value
  | none => null
  | some s => text s

end Value

end AccessStore.Json
