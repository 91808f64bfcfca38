/-
Privileges.

A privilege is a typed permission.  Its type says how the properties are to be read,
by others than this store.
-/
import AccessStore.Json.Schema
import AccessStore.Version

namespace AccessStore

open Json

/-- A privilege. -/
structure Privilege where
  id : String
  version : Option Version := none
  name : String := ""
  description : String := ""
  /-- What the properties mean depends on this. -/
  type : String := ""
  readOnly : Bool := false
  properties : SortedMap String String := SortedMap.empty
  deriving DecidableEq

namespace Privilege

/-- A privilege of this type, named by its id, without properties. -/
def new (id type : String) : Privilege := { id, type, name := id }

/-- Set one property. -/
def withProperty (p : Privilege) (name content : String) : Privilege :=
  { p with properties := p.properties.insert name content }

/-- How privileges are written. -/
def schema : Schema Privilege where
  start := { id := "" }
  fields :=
    [.need "id" Decoder.text fun v r => { r with id := v },
     .may "version" (.optional Version.decode) fun v r => { r with version := v },
     .may "name" Decoder.text fun v r => { r with name := v },
     .may "description" Decoder.text fun v r => { r with description := v },
     .may "type" Decoder.text fun v r => { r with type := v },
     .may "readOnly" Decoder.flag fun v r => { r with readOnly := v },
     .may "properties" Decoder.properties fun v r => { r with properties := v }]

/-- The privilege written by a node. -/
def decode : Decoder Privilege := schema.decode

/-- The members of a privilege's document, in order. -/
def members (p : Privilege) : List (String × Value) :=
  [("id", .text p.id)]
    ++ (p.version.map fun v => ("version", v.value)).toList
    ++ [("name", .text p.name), ("description", .text p.description), ("type", .text p.type),
        ("readOnly", .flag p.readOnly),
        ("properties", .object (p.properties.entries.map fun (name, content) => (name, .text content)))]

/-- The privilege as a document. -/
def value (p : Privilege) : Value := .object p.members

end Privilege

end AccessStore
