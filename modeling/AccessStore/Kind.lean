/-
The four kinds of records.

Users, roles, privileges and user-role mappings are kept alike, each kind in a table
of its own and under keys of its own, so most of what the store does is said once for
any kind.  `PerKind` holds one thing for each kind.
-/

namespace AccessStore

/-- The kinds of records. -/
inductive Kind
  | user
  | role
  | privilege
  | mapping
  deriving DecidableEq, Repr

namespace Kind

/-- All kinds, in the order in which a store prepares them. -/
def all : List Kind := [user, role, privilege, mapping]

/-- The name of the kind's table. -/
def table : Kind → String
  | user => "users"
  | role => "roles"
  | privilege => "privileges"
  | mapping => "user_role_mappings"

/-- The kind's name in messages. -/
def label : Kind → String
  | user => "User"
  | role => "Role"
  | privilege => "Privilege"
  | mapping => "User-role mapping"

/-- The names of the key columns, in order. -/
def columns : Kind → List String
  | mapping => ["user_id", "source"]
  | _ => ["id"]

end Kind

/-- What identifies a record of its kind: the values of the key columns, in order. -/
abbrev Key := List String

/-- A key in messages: its values, with a slash between them. -/
def Key.text (key : Key) : String := "/".intercalate key

/-- One thing for each kind. -/
structure PerKind (α : Type) where
  users : α
  roles : α
  privileges : α
  mappings : α
  deriving DecidableEq, Repr

namespace PerKind

variable {α β : Type}

/-- The same thing for every kind. -/
def fill (a : α) : PerKind α := ⟨a, a, a, a⟩

/-- The thing of a kind. -/
def get (p : PerKind α) : Kind → α
  | .user => p.users
  | .role => p.roles
  | .privilege => p.privileges
  | .mapping => p.mappings

/-- Replace the thing of a kind. -/
def set (p : PerKind α) (kind : Kind) (a : α) : PerKind α :=
  match kind with
  | .user => { p with users := a }
  | .role => { p with roles := a }
  | .privilege => { p with privileges := a }
  | .mapping => { p with mappings := a }

/-- Apply a function to each thing. -/
def map (f : α → β) (p : PerKind α) : PerKind β :=
  ⟨f p.users, f p.roles, f p.privileges, f p.mappings⟩

@[simp] theorem get_fill (a : α) (kind : Kind) : (fill a).get kind = a := by
  cases kind <;> rfl

theorem get_set (p : PerKind α) (kind other : Kind) (a : α) :
    (p.set kind a).get other = if other = kind then a else p.get other := by
  cases kind <;> cases other <;> rfl

@[simp] theorem get_set_self (p : PerKind α) (kind : Kind) (a : α) :
    (p.set kind a).get kind = a := by
  simp [get_set]

theorem get_set_ne (p : PerKind α) {kind other : Kind} (a : α) (h : other ≠ kind) :
    (p.set kind a).get other = p.get other := by
  simp [get_set, h]

@[simp] theorem get_map (f : α → β) (p : PerKind α) (kind : Kind) :
    (p.map f).get kind = f (p.get kind) := by
  cases kind <;> rfl

theorem ext_get {p q : PerKind α} (h : ∀ kind, p.get kind = q.get kind) : p = q := by
  obtain ⟨_, _, _, _⟩ := p
  obtain ⟨_, _, _, _⟩ := q
  have hu := h .user
  have hr := h .role
  have hp := h .privilege
  have hm := h .mapping
  simp only [get] at hu hr hp hm
  simp [hu, hr, hp, hm]

end PerKind

end AccessStore
