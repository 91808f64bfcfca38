/-
Opening a database.

A database is brought to the newest schema before it is used.  The tables that are
missing are created and those that are there are left as they are, all in one
transaction.  A database of the newest schema is taken as it is, and one of a newer
schema than the newest known is refused.

A database in a file is to keep a log before anything else is done to it, so it keeps
one even if it is refused for its schema.  The file is opened through a connection that
waits for the lock for as long as the settings say; the storage counts that time in 31
bits and panics where it does not fit.  By then the connection is made, and the file is
there.
-/
import AccessStore.Disk.Connection

namespace AccessStore

namespace Database

/-- The content with every table of the newest schema. -/
def upgraded (db : Database) : Database where
  schemaVersion := latestSchema
  tables := db.tables.map fun t => some (t.getD SortedMap.empty)
  markers := some (db.markers.getD (.fill false))

/-- Bring content to the newest schema. -/
def migrate (db : Database) : Except DatabaseError Database :=
  if db.schemaVersion < 0 then .error (.storage .outOfRange)
  else if latestSchema < db.schemaVersion then .error (.unsupportedSchema db.schemaVersion)
  else if db.schemaVersion = latestSchema then .ok db
  else .ok db.upgraded

/-- A fresh database comes to have every table, all of them empty. -/
theorem migrate_blank : migrate blank = .ok migrated := rfl

end Database

namespace Opening

/-- Bring a database to the newest schema.  One that has it already is not written to. -/
def upgrading : Action DatabaseError Unit := do
  let s ← get
  let db ← Action.ofExcept s.view.migrate
  if s.view.schemaVersion ≠ Database.latestSchema then Action.claim.mapError .storage
  set (s.setView db)

/-- Do so in one transaction. -/
def migration : Action DatabaseError Unit := .atomic .storage upgrading

/-- Have a database keep a log if it is in a file, and bring it to the newest schema. -/
def prepare (disk : Disk) (link : Link) : Except DatabaseError Unit × Disk :=
  match disk.startLog link with
  | (.ok (), disk) => disk.work link migration
  | (.error fault, disk) => (.error (.storage fault), disk)

/-- The longest wait that the storage can count, in milliseconds. -/
def longestWait : Nat := 1 <<< 31 - 1

/-- An event of opening a database. -/
def event (level : Level) (status mode : String) (details : List (String × Detail)) : Event :=
  .of level "db_open" "db" (("status", .text status) :: ("mode", .text mode) :: details)

/-- The event of an opening that failed. -/
def failure (code : String) (error : DatabaseError) : Event :=
  event .error "error" "file"
    [("duration_ms", .elapsed), ("error_code", .text code), ("error", .text error.account.message)]

/-- The event of an opening that succeeded. -/
def success (mode : String) : Event := event .info "ok" mode [("duration_ms", .elapsed)]

/-- How the opening of a database went. -/
structure Outcome where
  result : Except (Stop DatabaseError) Unit
  disk : Disk
  events : List Event

/-- Open the database in a file. -/
def file (disk : Disk) (path : String) (wait : Nat) : Outcome :=
  let begun := event .info "start" "file" []
  match disk.connect path with
  | .error fault =>
      let error := .storage fault
      ⟨.error (.failed error), disk, [begun, failure "db_open_failed" error]⟩
  | .ok (link, disk) =>
      if longestWait < wait then ⟨.error .panicked, disk.close link, [begun]⟩
      else
        match prepare disk link with
        | (.ok (), disk) => ⟨.ok (), disk.close link, [begun, success "file"]⟩
        | (.error error, disk) =>
            ⟨.error (.failed error), disk.close link, [begun, failure "db_bootstrap_failed" error]⟩

end Opening

end AccessStore
