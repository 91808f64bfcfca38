/-
User-role mappings.

A mapping says which roles a user has according to one source of identities.  The
mappings under the source `default` belong to the users of this store and follow
them.
-/
import AccessStore.Json.Schema
import AccessStore.Version

namespace AccessStore

open Json

/-- The roles of one user as seen from one source. -/
structure Mapping where
  userId : String
  source : String
  version : Option Version := none
  roles : NameSet := SortedMap.empty
  deriving DecidableEq

namespace Mapping

/-- The source of the users kept by this store. -/
def defaultSource : String := "default"

/-- A mapping without a version. -/
def new (userId source : String) (roles : NameSet) : Mapping := { userId, source, roles }

/-- The mapping of a user kept by this store, without a version. -/
def ofUser (userId : String) (roles : NameSet) : Mapping := new userId defaultSource roles

/-- How mappings are written. -/
def schema : Schema Mapping where
  start := { userId := "", source := "" }
  fields :=
    [.need "userId" Decoder.text fun v r => { r with userId := v },
     .need "source" Decoder.text fun v r => { r with source := v },
     .may "version" (.optional Version.decode) fun v r => { r with version := v },
     .may "roles" Decoder.names fun v r => { r with roles := v }]

/-- The mapping written by a node. -/
def decode : Decoder Mapping := schema.decode

/-- The members of a mapping's document, in order. -/
def members (m : Mapping) : List (String × Value) :=
  [("userId", .text m.userId), ("source", .text m.source)]
    ++ (m.version.map fun v => ("version", v.value)).toList
    ++ [("roles", .texts m.roles.toList)]

/-- The mapping as a document. -/
def value (m : Mapping) : Value := .object m.members

end Mapping

end AccessStore
