/-
Databases as documents.

Between two runs of the command line a database is kept in a file, as a document that
tells whether it keeps a log, its schema version, the kinds that have been prepared,
and the rows of each table.  A
row is a list of texts: the parts of its key, the version in digits, and the payload.
A table that the database does not have is null.
-/
import AccessStore.Disk
import AccessStore.Json.Schema

namespace AccessStore.Snapshot

open Json

/-- A row as a list of texts. -/
def rowValue (entry : Key × Row) : Value :=
  .texts (entry.1 ++ [Text.decimal entry.2.version, entry.2.payload])

/-- A table as a list of rows. -/
def tableValue : Option Table → Value
  | some t => .list (t.entries.map rowValue)
  | none => .null

/-- The kinds that have been prepared, by the names of their tables. -/
def markersValue : Option (PerKind Bool) → Value
  | some marks => .texts ((Kind.all.filter marks.get).map Kind.table)
  | none => .null

/-- A database as a document. -/
def value (file : DatabaseFile) : Value :=
  let db := file.content
  .object
    (("logged", .flag file.logged) ::
      ("schemaVersion", .text (Text.decimal db.schemaVersion)) ::
      ("registered", markersValue db.markers) ::
      Kind.all.map fun kind => (kind.table, tableValue (db.tables.get kind)))

/-- An integer, written as a text. -/
def integer : Decoder Int := fun node => do
  match Text.decimal? (← Decoder.text node) with
  | some n => pure n
  | none => throw .mismatch

/-- A row: what comes before the last two texts is the key. -/
def row : Decoder (Key × Row) := fun node => do
  match (← Decoder.list Decoder.text node).reverse with
  | payload :: version :: key =>
      match Text.decimal? version with
      | some n => pure (key.reverse, ⟨n, payload⟩)
      | none => throw .mismatch
  | _ => throw .mismatch

/-- A table. -/
def table : Decoder (Option Table) := .optional fun node => (Decoder.list row node).map .ofList

/-- The kinds that have been prepared. -/
def markers : Decoder (Option (PerKind Bool)) := .optional fun node =>
  (Decoder.list Decoder.text node).map fun names =>
    Kind.all.foldl (fun marks kind => marks.set kind (names.contains kind.table)) (.fill false)

/-- How a database is written. -/
def schema : Schema DatabaseFile where
  start := { content := .blank }
  fields :=
    .need "logged" Decoder.flag (fun v file => { file with logged := v }) ::
      .need "schemaVersion" integer (fun v file => { file with content.schemaVersion := v }) ::
      .need "registered" markers (fun v file => { file with content.markers := v }) ::
      Kind.all.map fun kind =>
        .need kind.table table fun v file =>
          { file with content.tables := file.content.tables.set kind v }
  strict := true

/-- The text of a database. -/
def text (file : DatabaseFile) : String := (value file).render

/-- The database written by a text, if it is one. -/
def ofText? (s : String) : Option DatabaseFile :=
  match schema.decode.run s with
  | .ok file => some file
  | .error _ => none

end AccessStore.Snapshot
