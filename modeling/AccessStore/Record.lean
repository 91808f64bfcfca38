/-
Records of any kind.

What the store needs to know about a record is the same for every kind: its kind, its
key, the version it carries, and how it is written.  A record is identified by one or
two of its fields, and none of these may be blank.
-/
import AccessStore.Kind
import AccessStore.Record.Mapping
import AccessStore.Record.Privilege
import AccessStore.Record.Role
import AccessStore.Record.User

namespace AccessStore

/-- A record of one of the four kinds. -/
inductive Record
  | user (u : User)
  | role (r : Role)
  | privilege (p : Privilege)
  | mapping (m : Mapping)
  deriving DecidableEq

/-- An identifying field holds nothing but blank characters. -/
structure BlankIdentity where
  kind : Kind
  field : String
  deriving DecidableEq, Repr

/-- The fault in words. -/
def BlankIdentity.message (e : BlankIdentity) : String :=
  e.kind.label ++ " `" ++ e.field ++ "` must not be blank"

namespace Record

/-- The kind of a record. -/
def kind : Record → Kind
  | user _ => .user
  | role _ => .role
  | privilege _ => .privilege
  | mapping _ => .mapping

/-- The identifying fields, in the order of the key columns: name and value. -/
def identity : Record → List (String × String)
  | user u => [("id", u.id)]
  | role r => [("id", r.id)]
  | privilege p => [("id", p.id)]
  | mapping m => [("userId", m.userId), ("source", m.source)]

/-- What identifies the record among those of its kind. -/
def key (r : Record) : Key := r.identity.map (·.2)

/-- The version that the record carries, if any. -/
def version : Record → Option Version
  | user u => u.version
  | role r => r.version
  | privilege p => p.version
  | mapping m => m.version

/-- The same record with another version, or none. -/
def withVersion (v : Option Version) : Record → Record
  | user u => user { u with version := v }
  | role r => role { r with version := v }
  | privilege p => privilege { p with version := v }
  | mapping m => mapping { m with version := v }

/-- The first identifying field that is blank. -/
def blankIdentity? (r : Record) : Option BlankIdentity :=
  (r.identity.find? fun field => Text.isBlankText field.2).map fun field => ⟨r.kind, field.1⟩

/-- The record as a document. -/
def value : Record → Json.Value
  | user u => u.value
  | role r => r.value
  | privilege p => p.value
  | mapping m => m.value

/-- The text of the record. -/
def text (r : Record) : String := r.value.render

/-- The record of a kind written by a node. -/
def decode : Kind → Json.Decoder Record
  | .user => fun node => (User.decode node).map user
  | .role => fun node => (Role.decode node).map role
  | .privilege => fun node => (Privilege.decode node).map privilege
  | .mapping => fun node => (Mapping.decode node).map mapping

/-- The record of a kind written by a text. -/
def ofText (kind : Kind) (s : String) : Except Json.Fault Record :=
  (decode kind).run s

@[simp] theorem kind_withVersion (r : Record) (v : Option Version) :
    (r.withVersion v).kind = r.kind := by
  cases r <;> rfl

@[simp] theorem key_withVersion (r : Record) (v : Option Version) :
    (r.withVersion v).key = r.key := by
  cases r <;> rfl

@[simp] theorem version_withVersion (r : Record) (v : Option Version) :
    (r.withVersion v).version = v := by
  cases r <;> rfl

@[simp] theorem withVersion_withVersion (r : Record) (v w : Option Version) :
    (r.withVersion v).withVersion w = r.withVersion w := by
  cases r <;> rfl

@[simp] theorem withVersion_version (r : Record) : r.withVersion r.version = r := by
  cases r <;> rfl

end Record

end AccessStore
