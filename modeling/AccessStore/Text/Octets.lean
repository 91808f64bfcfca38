/-
Octets of texts.

Outside of a program a text is a row of octets, those of its characters one after
another, and some rows of octets are no text.  Names of files are such rows, so they
are kept as octets; a text is turned into octets wherever it names a file.
-/

namespace AccessStore.Text

/-- The octets of characters. -/
def octetsOfChars (cs : List Char) : List UInt8 := cs.flatMap String.utf8EncodeChar

/-- The octets of a text. -/
def octets (s : String) : List UInt8 := octetsOfChars s.toList

/-- The text of octets, if they are one. -/
def ofOctets? (bytes : List UInt8) : Option String := String.fromUTF8? ⟨bytes.toArray⟩

/-- Octets, each read as a character of its own. -/
def singly (bytes : List UInt8) : List Char := bytes.map fun b => Char.ofNat b.toNat

end AccessStore.Text
