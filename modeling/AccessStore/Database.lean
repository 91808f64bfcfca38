/-
Databases.

A database has a schema version, a table of rows for each kind, and a marker for each
kind whose records have been prepared.  Any of these tables can be missing: a database
that was never migrated has none.  A row is found by its key and holds the version of
a record and the text of the rest; nothing here looks into that text.

Changing a row is conditional on the version it has, so the change tells whether there
was such a row.
-/
import AccessStore.Failure
import AccessStore.SortedMap

namespace AccessStore

/-- A stored row, apart from its key. -/
structure Row where
  version : Int
  /-- The record's document, without the version. -/
  payload : String
  deriving DecidableEq, Repr

/-- The rows of one kind by their keys. -/
abbrev Table := SortedMap Key Row

namespace Table

/-- Add a row, unless there is one of this key. -/
def insert? (t : Table) (key : Key) (row : Row) : Option Table :=
  if (t.get? key).isSome then none else some (t.insert key row)

/-- Whether the row of this key has this version. -/
def hasVersion (t : Table) (key : Key) (version : Int) : Bool :=
  (t.get? key).any (·.version = version)

/-- Give the row of this key and version another payload and the next version, which has to be
positive. -/
def update (t : Table) (key : Key) (version : Int) (payload : String) :
    Except StorageFault (Bool × Table) :=
  if t.hasVersion key version then
    if version + 1 ≤ 0 then .error .constraint else .ok (true, t.insert key ⟨version + 1, payload⟩)
  else .ok (false, t)

/-- Delete the row of this key and version. -/
def delete (t : Table) (key : Key) (version : Int) : Bool × Table :=
  if t.hasVersion key version then (true, t.erase key) else (false, t)

end Table

/-- The content of a database. -/
structure Database where
  schemaVersion : Int := 0
  tables : PerKind (Option Table) := .fill none
  /-- The kinds whose records have been prepared. -/
  markers : Option (PerKind Bool) := none
  deriving DecidableEq

namespace Database

/-- A database that was never written to. -/
def blank : Database := {}

/-- The newest schema. -/
def latestSchema : Int := 1

/-- A database of the newest schema, without rows. -/
def migrated : Database where
  schemaVersion := latestSchema
  tables := .fill (some SortedMap.empty)
  markers := some (.fill false)

/-- The rows of a kind. -/
def table? (db : Database) (kind : Kind) : Option Table := db.tables.get kind

/-- Replace the rows of a kind. -/
def setTable (db : Database) (kind : Kind) (t : Table) : Database :=
  { db with tables := db.tables.set kind (some t) }

/-- The row of a kind and key. -/
def row? (db : Database) (kind : Kind) (key : Key) : Option Row :=
  (db.table? kind).bind (·.get? key)

/-- The records of the kind have been prepared. -/
def isMarked (db : Database) (kind : Kind) : Bool := db.markers.any (·.get kind)

theorem table?_setTable (db : Database) (kind other : Kind) (t : Table) :
    (db.setTable kind t).table? other = if other = kind then some t else db.table? other := by
  simp [table?, setTable, PerKind.get_set]

@[simp] theorem table?_setTable_self (db : Database) (kind : Kind) (t : Table) :
    (db.setTable kind t).table? kind = some t := by
  simp [table?_setTable]

@[simp] theorem markers_setTable (db : Database) (kind : Kind) (t : Table) :
    (db.setTable kind t).markers = db.markers := rfl

@[simp] theorem schemaVersion_setTable (db : Database) (kind : Kind) (t : Table) :
    (db.setTable kind t).schemaVersion = db.schemaVersion := rfl

end Database

/-- Why a database cannot be used. -/
inductive DatabaseError
  | storage (fault : StorageFault)
  /-- The schema is newer than the newest one known here. -/
  | unsupportedSchema (found : Int)
  deriving DecidableEq, Repr

/-- The failure in words. -/
def DatabaseError.account : DatabaseError → Account
  | storage fault => fault.account.because fault.account.message
  | unsupportedSchema found =>
      { message :=
          "security database schema version " ++ Text.decimal found ++ " is newer than supported "
            ++ Text.decimal Database.latestSchema }

end AccessStore
