/-
Wanted values out of the tree of a document.

A decoder asks a node for a value of one sort.  A node of another sort is a mismatch,
except where its one token is itself at fault: a number out of range, or a text whose
content is unknown, is read before its sort is judged and is malformed.
-/
import AccessStore.Json.Fault
import AccessStore.Json.Node
import AccessStore.SortedMap

namespace AccessStore.Json

/-- Asks a node for a value. -/
abbrev Decoder (α : Type) := Node → Except Fault α

/-- The fault of a node that is of another sort than the one wanted. -/
def Node.unwanted : Node → Fault
  | .missing => .malformed
  | .number spelling => if fits spelling then .mismatch else .malformed
  | .text none => .malformed
  | _ => .mismatch

namespace Decoder

variable {α β : Type}

/-- The text of a name or value. -/
def text : Decoder String
  | .text (some s) => .ok s
  | node => .error node.unwanted

/-- True or false. -/
def flag : Decoder Bool
  | .flag value => .ok value
  | node => .error node.unwanted

/-- An unsigned integer of 64 bits. -/
def unsigned64 : Decoder Nat
  | .number spelling =>
      match (Numeral.ofSpelling spelling).unsigned64? with
      | some n => .ok n
      | none => .error (Node.number spelling).unwanted
  | node => .error node.unwanted

/-- Null for none, or else a value. -/
def optional (d : Decoder α) : Decoder (Option α)
  | .null => .ok none
  | node => (d node).map some

/-- A list; each item is asked in turn, and then the closing bracket must be there. -/
def list (d : Decoder α) : Decoder (List α)
  | .array items ending => do
      let values ← items.mapM d
      if ending = .closed then pure values else throw .malformed
  | node => .error node.unwanted

/-- A list of texts, order and repetition left aside. -/
def names : Decoder NameSet := fun node => (list text node).map NameSet.ofList

/-- The name of a member. -/
def name : Option String → Except Fault String
  | some s => .ok s
  | none => .error .malformed

/-- An object of texts under any names; of two members with one name the later wins. -/
def properties : Decoder (SortedMap String String)
  | .object members ending => do
      let pairs ← members.mapM fun (member, value) => do
        let key ← name member
        let content ← text value
        pure (key, content)
      if ending = .closed then pure (SortedMap.ofList pairs) else throw .malformed
  | node => .error node.unwanted

/-- A choice by its name. -/
def choose (choices : List (String × α)) (given : String) : Except Fault α :=
  match choices.find? (·.1 = given) with
  | some choice => .ok choice.2
  | none => .error (.unknownVariant given (choices.map (·.1)))

/-- A choice, written as its name, or as an object whose one member has that name and the
value null. -/
def choice (choices : List (String × α)) : Decoder α
  | .text (some given) => choose choices given
  | .object ((member, value) :: rest) ending => do
      let given ← name member
      let chosen ← choose choices given
      match value with
      | .null => if rest.isEmpty && ending = .closed then pure chosen else throw .malformed
      | value => throw value.unwanted
  | _ => .error .malformed

/-- Ask a whole document: what follows its value is looked at last. -/
def run (d : Decoder α) (s : String) : Except Fault α := do
  let document := Document.ofText s
  let value ← d document.root
  if document.excess then throw .malformed else pure value

end Decoder

end AccessStore.Json
