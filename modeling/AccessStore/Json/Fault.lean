/-
What can be wrong with a document.

A reader of a document reports one fault, the first in the order of the text.  All
breaches of JSON's own grammar are one fault, `malformed`, and so are numbers too
large for a double; all values of an unwanted sort are another, `mismatch`.  The
remaining faults name what they are about.
-/

namespace AccessStore.Json

/-- The first thing wrong with a document. -/
inductive Fault
  /-- The text is no JSON, or breaks off. -/
  | malformed
  /-- A value is of another sort than the one wanted. -/
  | mismatch
  /-- A member that must be there is not. -/
  | missingField (name : String)
  /-- A member is given twice. -/
  | duplicateField (name : String)
  /-- A member has a name that is not among those allowed. -/
  | unknownField (name : String) (expected : List String)
  /-- A choice is not among those allowed. -/
  | unknownVariant (name : String) (expected : List String)
  /-- A version is no version; its text, untrimmed. -/
  | invalidVersion (text : String)
  deriving DecidableEq, Repr

namespace Fault

/-- A name between back quotes. -/
def ticked (name : String) : String := "`" ++ name ++ "`"

/-- The allowed names: two are joined by a word, more are listed. -/
def expectation : List String → String
  | [a, b] => "expected " ++ ticked a ++ " or " ++ ticked b
  | names => "expected one of " ++ ", ".intercalate (names.map ticked)

/-- The fault in words.  Positions are not told, and the two broad faults have one wording. -/
def message : Fault → String
  | malformed => "<syntax>"
  | mismatch => "<type>"
  | missingField name => "missing field " ++ ticked name
  | duplicateField name => "duplicate field " ++ ticked name
  | unknownField name expected => "unknown field " ++ ticked name ++ ", " ++ expectation expected
  | unknownVariant name expected =>
      "unknown variant " ++ ticked name ++ ", " ++ expectation expected
  | invalidVersion text => "invalid version token " ++ ticked text

end Fault

end AccessStore.Json
