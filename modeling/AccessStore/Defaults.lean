/-
Default records.

A fresh database is seeded from a document that lists records of every kind; a kind
that the document leaves out has no defaults.  The built-in document has two users,
their roles, the privileges of these and the users' mappings.
-/
import AccessStore.Record

namespace AccessStore

open Json

/-- The records to seed, kind by kind. -/
structure Defaults where
  users : List User := []
  roles : List Role := []
  privileges : List Privilege := []
  mappings : List Mapping := []
  deriving DecidableEq

namespace Defaults

/-- How a document of defaults is written. -/
def schema : Schema Defaults where
  start := {}
  fields :=
    [.may "users" (.list User.decode) fun v r => { r with users := v },
     .may "roles" (.list Role.decode) fun v r => { r with roles := v },
     .may "privileges" (.list Privilege.decode) fun v r => { r with privileges := v },
     .may "userRoleMappings" (.list Mapping.decode) fun v r => { r with mappings := v }]

/-- The defaults written by a text. -/
def ofText (s : String) : Except Fault Defaults := schema.decode.run s

/-- The defaults as a document. -/
def value (d : Defaults) : Value :=
  .object
    [("users", .list (d.users.map User.value)), ("roles", .list (d.roles.map Role.value)),
     ("privileges", .list (d.privileges.map Privilege.value)),
     ("userRoleMappings", .list (d.mappings.map Mapping.value))]

/-- The defaults of a kind, in the order in which they are seeded. -/
def records (d : Defaults) : Kind → List Record
  | .user => d.users.map .user
  | .role => d.roles.map .role
  | .privilege => d.privileges.map .privilege
  | .mapping => d.mappings.map .mapping

theorem kind_of_mem_records {d : Defaults} {kind : Kind} {r : Record} (h : r ∈ d.records kind) :
    r.kind = kind := by
  cases kind <;> simp only [records, List.mem_map] at h <;> obtain ⟨_, _, rfl⟩ := h <;> rfl

/-- The defaults that apply where no others are given. -/
def builtin : Defaults where
  users :=
    [{ id := "admin", firstName := "Administrator", lastName := "User",
       email := "admin@example.org", status := .changePassword },
     { id := "anonymous", firstName := "Anonymous", lastName := "User",
       email := "anonymous@example.org" }]
  roles :=
    [{ id := "nx-admin", name := "nx-admin", description := "Administrator Role",
       readOnly := true, privileges := .ofList ["nx-all"] },
     { id := "nx-anonymous", name := "nx-anonymous", description := "Anonymous Role",
       readOnly := true, privileges := .ofList ["nx-healthcheck-read", "nx-search-read"] }]
  privileges :=
    [{ id := "nx-all", name := "nx-all", description := "All permissions", type := "wildcard",
       readOnly := true, properties := .ofList [("pattern", "nexus:*")] },
     { id := "nx-healthcheck-read", name := "nx-healthcheck-read",
       description := "Read system health status", type := "application", readOnly := true,
       properties := .ofList [("domain", "healthcheck"), ("actions", "read")] },
     { id := "nx-search-read", name := "nx-search-read", description := "Search repositories",
       type := "application", readOnly := true,
       properties := .ofList [("domain", "search"), ("actions", "read")] }]
  mappings :=
    [.ofUser "admin" (.ofList ["nx-admin"]), .ofUser "anonymous" (.ofList ["nx-anonymous"])]

end Defaults

end AccessStore
