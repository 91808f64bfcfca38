/-
Records in documents.

A record is described by a table of its fields.  Each field has a name and a way to
read its value into a record under construction, which starts out with every field at
its default.  One walk over the members of an object serves every record: a name that
is in no field is passed over, or refused where the schema is strict; a field given
twice is refused before its second value is looked at; a required field that was not
given is missed where the object ends.

A record may also be written as a list of its field values in the order of the table.
-/
import AccessStore.Json.Decoder

namespace AccessStore.Json

/-- A field of a record of type `ρ`. -/
structure Field (ρ : Type) where
  name : String
  /-- The field has no default. -/
  required : Bool
  /-- Read the field's value: what it does to the record under construction. -/
  read : Decoder (ρ → ρ)

namespace Field

variable {ρ α : Type}

/-- A field that must be given. -/
def need (name : String) (d : Decoder α) (set : α → ρ → ρ) : Field ρ :=
  ⟨name, true, fun node => (d node).map set⟩

/-- A field that keeps its default where it is not given. -/
def may (name : String) (d : Decoder α) (set : α → ρ → ρ) : Field ρ :=
  ⟨name, false, fun node => (d node).map set⟩

end Field

/-- How a record is written. -/
structure Schema (ρ : Type) where
  /-- The record with every field at its default. -/
  start : ρ
  fields : List (Field ρ)
  /-- Names of no field are refused. -/
  strict : Bool := false

namespace Schema

variable {ρ : Type}

/-- A record under construction, and the names of the fields given so far. -/
structure Draft (ρ : Type) where
  record : ρ
  given : List String

/-- The field of this name. -/
def field? (s : Schema ρ) (name : String) : Option (Field ρ) :=
  s.fields.find? (·.name = name)

/-- Take in one member of an object. -/
def member (s : Schema ρ) (draft : Draft ρ) (m : Member) : Except Fault (Draft ρ) := do
  let name ← Decoder.name m.1
  match s.field? name with
  | some field =>
      if name ∈ draft.given then throw (.duplicateField name)
      else
        let update ← field.read m.2
        pure ⟨update draft.record, name :: draft.given⟩
  | none =>
      if s.strict then throw (.unknownField name (s.fields.map (·.name)))
      else if m.2.isWhole then pure draft
      else throw .malformed

/-- A required field that was not given. -/
def missed? (s : Schema ρ) (given : List String) : Option (Field ρ) :=
  s.fields.find? fun field => field.required && !given.contains field.name

/-- The record written by the members of an object. -/
def ofMembers (s : Schema ρ) (members : List Member) (ending : Ending) : Except Fault ρ := do
  let draft ← members.foldlM s.member ⟨s.start, []⟩
  if ending = .closed then
    match s.missed? draft.given with
    | some field => throw (.missingField field.name)
    | none => pure draft.record
  else throw .malformed

/-- The record written by a list of values for these fields in order.  Fields beyond the list
keep their defaults; values beyond the fields are not looked at. -/
def ofItems (record : ρ) (ending : Ending) : List (Field ρ) → List Node → Except Fault ρ
  | [], [] => if ending = .closed then .ok record else .error .malformed
  | [], _ :: _ => .error .malformed
  | field :: fields, [] =>
      if ending ≠ .closed then .error .malformed
      else if field.required then .error .mismatch
      else ofItems record ending fields []
  | field :: fields, node :: nodes => do
      let update ← field.read node
      ofItems (update record) ending fields nodes

/-- The record written by a node. -/
def decode (s : Schema ρ) : Decoder ρ
  | .object members ending => s.ofMembers members ending
  | .array items ending => ofItems s.start ending s.fields items
  | node => .error node.unwanted

end Schema

end AccessStore.Json
