/-
Settings of a store.

A settings document says where the database lives, how long a writer waits for the
database's lock, whether and where to log, and which defaults to seed.  Names that are
no setting are refused.  The location is itself an object, tagged by its member `kind`,
and its other members are set aside until the tag is known, which is why they must be
such as can be set aside, within the nesting that a document may have.
-/
import AccessStore.Json.Schema
import AccessStore.Json.Value

namespace AccessStore

open Json

/-- Where a database lives. -/
inductive Location
  /-- In the memory of the store, for as long as the store lives. -/
  | memory
  /-- In a file. -/
  | file (path : String)
  deriving DecidableEq, Repr

namespace Location

/-- How deep arrays and objects may be nested in what a document sets aside. -/
def nesting : Nat := 127

/-- The sorts of locations. -/
inductive Tag
  | memory
  | file
  deriving DecidableEq, Repr

/-- The tags in documents. -/
def tags : List (String × Tag) := [("memory", .memory), ("file", .file)]

/-- The sort of location that a node names. -/
def tagOf : Decoder Tag := fun node => do
  Decoder.choose tags (← Decoder.text node)

/-- Set a value aside; `room` is the nesting left to it. -/
def setAside (room : Nat) (node : Node) : Except Fault Node :=
  if node.keeps room then .ok node else .error .malformed

/-- The sort and the other members of a tagged object, as far as they are known. -/
structure Parts where
  tag : Option Tag := none
  /-- The members set aside, last first. -/
  others : List (String × Node) := []

/-- Take in one member of a tagged object. -/
def Parts.add (room : Nat) (parts : Parts) (m : Member) : Except Fault Parts := do
  let name ← Decoder.name m.1
  if name = "kind" then
    if parts.tag.isSome then throw (.duplicateField "kind")
    else
      let tag ← tagOf m.2
      pure { parts with tag := some tag }
  else
    let node ← setAside room m.2
    pure { parts with others := (name, node) :: parts.others }

/-- The path among the members set aside; other members do not matter. -/
def pathOf (others : List (String × Node)) : Except Fault String := do
  let found ← others.foldlM (fun (found : Option String) m =>
    if m.1 = "path" then
      if found.isSome then throw (.duplicateField "path")
      else do
        let path ← Decoder.text m.2
        pure (some path)
    else pure found) none
  match found with
  | some path => pure path
  | none => throw (.missingField "path")

/-- The location written by a node that lies within `depth` arrays and objects.  As a list, the
tag comes first and exactly the fields of that sort follow. -/
def decode (depth : Nat) : Decoder Location
  | .object members ending => do
      let parts ← members.foldlM (Parts.add (nesting - depth - 1)) {}
      if ending ≠ .closed then throw .malformed
      match parts.tag with
      | none => throw (.missingField "kind")
      | some .memory => pure .memory
      | some .file => do
          let path ← pathOf parts.others.reverse
          pure (.file path)
  | .array [] ending => throw (if ending = .closed then .missingField "kind" else .malformed)
  | .array (first :: rest) ending => do
      let tag ← tagOf first
      let fields ← rest.mapM (setAside (nesting - depth - 1))
      if ending ≠ .closed then throw .malformed
      match tag, fields with
      | .memory, [] => pure .memory
      | .file, [field] => do
          let path ← Decoder.text field
          pure (.file path)
      | _, _ => throw .mismatch
  | node => .error node.unwanted

/-- The location as a document. -/
def value : Location → Value
  | memory => .object [("kind", .text "memory")]
  | file path => .object [("kind", .text "file"), ("path", .text path)]

/-- The location written by a text of its own. -/
def ofText (s : String) : Except Fault Location := (decode 0).run s

end Location

/-- The settings of one store. -/
structure Config where
  database : Location := .memory
  /-- How long a writer waits for the lock, in milliseconds. -/
  busyTimeoutMs : Nat := 5000
  logLevel : Option String := none
  /-- Where log files go; nothing is logged without it. -/
  logDir : Option String := none
  /-- The document of defaults; the built-in defaults apply without it. -/
  defaultsPath : Option String := none
  deriving DecidableEq, Repr

/-- Why settings that could be read are refused. -/
inductive InvalidConfig
  | zeroTimeout
  | levelWithoutDirectory
  deriving DecidableEq, Repr

/-- The reason in words. -/
def InvalidConfig.reason : InvalidConfig → String
  | zeroTimeout => "busy_timeout_ms must be greater than zero"
  | levelWithoutDirectory => "log_level requires log_dir"

namespace Config

/-- How settings are written. -/
def schema : Schema Config where
  start := {}
  fields :=
    [.may "database" (Location.decode 1) fun v r => { r with database := v },
     .may "busy_timeout_ms" Decoder.unsigned64 fun v r => { r with busyTimeoutMs := v },
     .may "log_level" (.optional Decoder.text) fun v r => { r with logLevel := v },
     .may "log_dir" (.optional Decoder.text) fun v r => { r with logDir := v },
     .may "defaults_path" (.optional Decoder.text) fun v r => { r with defaultsPath := v }]
  strict := true

/-- The settings as a document. -/
def value (c : Config) : Value :=
  .object
    [("database", c.database.value), ("busy_timeout_ms", .number c.busyTimeoutMs),
     ("log_level", .textOrNull c.logLevel), ("log_dir", .textOrNull c.logDir),
     ("defaults_path", .textOrNull c.defaultsPath)]

/-- The first reason to refuse the settings. -/
def invalid? (c : Config) : Option InvalidConfig :=
  if c.busyTimeoutMs = 0 then some .zeroTimeout
  else if c.logLevel.isSome && c.logDir.isNone then some .levelWithoutDirectory
  else none

end Config

end AccessStore
