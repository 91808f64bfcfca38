/-
Roles.

A role grants privileges and may contain further roles.  The names it lists are not
checked against what is stored.
-/
import AccessStore.Json.Schema
import AccessStore.Version

namespace AccessStore

open Json

/-- A role. -/
structure Role where
  id : String
  version : Option Version := none
  name : String := ""
  description : String := ""
  readOnly : Bool := false
  /-- The privileges granted directly. -/
  privileges : NameSet := SortedMap.empty
  /-- The roles contained. -/
  roles : NameSet := SortedMap.empty
  deriving DecidableEq

namespace Role

/-- A role of this name that grants nothing. -/
def new (id name : String) : Role := { id, name }

/-- How roles are written. -/
def schema : Schema Role where
  start := { id := "" }
  fields :=
    [.need "id" Decoder.text fun v r => { r with id := v },
     .may "version" (.optional Version.decode) fun v r => { r with version := v },
     .may "name" Decoder.text fun v r => { r with name := v },
     .may "description" Decoder.text fun v r => { r with description := v },
     .may "readOnly" Decoder.flag fun v r => { r with readOnly := v },
     .may "privileges" Decoder.names fun v r => { r with privileges := v },
     .may "roles" Decoder.names fun v r => { r with roles := v }]

/-- The role written by a node. -/
def decode : Decoder Role := schema.decode

/-- The members of a role's document, in order. -/
def members (r : Role) : List (String × Value) :=
  [("id", .text r.id)]
    ++ (r.version.map fun v => ("version", v.value)).toList
    ++ [("name", .text r.name), ("description", .text r.description), ("readOnly", .flag r.readOnly),
        ("privileges", .texts r.privileges.toList), ("roles", .texts r.roles.toList)]

/-- The role as a document. -/
def value (r : Role) : Value := .object r.members

end Role

end AccessStore
