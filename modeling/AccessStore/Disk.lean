/-
Files and directories of a disk.

A disk has entries at places, and a place is the list of names that leads to it from
the root.  Names and paths are octets, which need not be texts.  There are no links, so
a path is resolved name by name, going down through directories.  Names and paths have
a longest size, and a path that is too long leads nowhere, whatever its names are.

What matters of a file is its text, or that it has none because it is not UTF-8.  A
database occupies a file of its own; so does the lock that keeps all but one
connection from writing to it.  A database without tables is written as a header that
is a text, unless its schema version spoils it.
-/
import AccessStore.Database
import AccessStore.Text.Octets

namespace AccessStore

/-- What an entry of a directory is called. -/
abbrev EntryName := List UInt8

/-- A way down from the root. -/
abbrev Place := List EntryName

/-- A way to a place, in names with slashes between them. -/
abbrev Path := List UInt8

/-- The path that a text writes. -/
def Path.ofText (s : String) : Path := Text.octets s

/-- The file of a database, and what connections to it share. -/
structure DatabaseFile where
  content : Database
  /-- A connection holds the lock for writing. -/
  locked : Bool := false
  /-- What is written goes to a log, which connections follow in memory that they share. -/
  logged : Bool := false
  /-- The file was opened this often by somebody who does not use it any more, each time either
  for reading only or not. -/
  spares : List Bool := []

/-- What stands at a place. -/
inductive Entry
  | directory
  | text (content : String)
  /-- A file of this size that is not UTF-8. -/
  | bytes (size : Nat)
  | database (file : DatabaseFile)

/-- Why a file cannot be read as a text. -/
inductive FileFault
  | notFound
  | isADirectory
  | notADirectory
  | notText
  /-- The path or a name on it is too long. -/
  | tooLong
  /-- The path has a zero character. -/
  | zeroCharacter
  deriving DecidableEq, Repr

/-- The entries of a disk. -/
structure Disk where
  entries : SortedMap Place Entry
  /-- Where paths start that do not start at the root. -/
  current : Place := []

namespace Disk

/-- The longest name of an entry, in bytes. -/
def longestName : Nat := 255

/-- The longest path, in bytes. -/
def longestPath : Nat := 4095

/-- What stands between the names on a path. -/
def slash : UInt8 := '/'.toUInt8

/-- The name for staying where one is. -/
def stay : EntryName := Text.octets "."

/-- The name for going up. -/
def up : EntryName := Text.octets ".."

/-- The parts of a path, between its slashes. -/
def parts (path : Path) : List EntryName := path.splitOn slash

/-- The path starts at the root. -/
def isAbsolute (path : Path) : Bool := path.head? = some slash

/-- The place where a path starts. -/
def start (disk : Disk) (path : Path) : Place := if isAbsolute path then [] else disk.current

/-- What stands at a place; the root is a directory. -/
def entry? (disk : Disk) (place : Place) : Option Entry :=
  if place = [] then some .directory else disk.entries.get? place

/-- The place is a directory. -/
def isDirectory (disk : Disk) (place : Place) : Bool :=
  match disk.entry? place with
  | some .directory => true
  | _ => false

/-- Put an entry at a place. -/
def put (disk : Disk) (place : Place) (entry : Entry) : Disk :=
  { disk with entries := disk.entries.insert place entry }

/-- Put a file at a place, unless a directory is there. -/
def putFile (disk : Disk) (place : Place) (entry : Entry) : Disk :=
  if disk.isDirectory place then disk else disk.put place entry

/-- Remove what stands at a place, unless it is a directory. -/
def removeFile (disk : Disk) (place : Place) : Disk :=
  if disk.isDirectory place then disk else { disk with entries := disk.entries.erase place }

/-- Where one part of a path leads. -/
def follow (place : Place) (part : EntryName) : Place :=
  if part = [] ∨ part = stay then place
  else if part = up then place.dropLast
  else place ++ [part]

/-- Where a path leads if nothing is in the way. -/
def target (disk : Disk) (path : Path) : Place := (parts path).foldl follow (disk.start path)

/-- Go down a path, as long as it leads through directories. -/
def walk (disk : Disk) (place : Place) : List EntryName → Except FileFault Place
  | [] => .ok place
  | part :: rest =>
      match disk.entry? place with
      | none => .error .notFound
      | some .directory =>
          if longestName < part.length then .error .tooLong
          else disk.walk (follow place part) rest
      | some _ => .error .notADirectory

/-- A path that the system takes. -/
def checkPath (path : Path) : Except FileFault Unit :=
  if 0 ∈ path then .error .zeroCharacter
  else if path = [] then .error .notFound
  else if longestPath < path.length then .error .tooLong
  else .ok ()

/-- The place that a path leads to; there need not be anything. -/
def resolve (disk : Disk) (path : Path) : Except FileFault Place := do
  checkPath path
  disk.walk (disk.start path) (parts path)

/-- What stands at the end of a path. -/
def lookUp (disk : Disk) (path : Path) : Except FileFault Entry := do
  match disk.entry? (← disk.resolve path) with
  | some entry => pure entry
  | none => throw .notFound

/-- A path leads to a file or a directory. -/
def leadsSomewhere (disk : Disk) (path : Path) : Bool := (disk.lookUp path).isOk

/-! ### Files -/

/-- The bytes of a schema version, as a database is written. -/
def versionBytes (version : Int) : List UInt8 :=
  let n := (version % (1 <<< 32 : Nat)).toNat
  [24, 16, 8, 0].map fun shift => (n >>> shift).toUInt8

/-- What stands in the file of a database without tables, as far as it matters: no document
starts like that. -/
def databaseHeader : String := "database"

/-- A database is written as a text: it has no tables, and its schema version fits in. -/
def isText (content : Database) : Bool :=
  Kind.all.all (fun kind => (content.table? kind).isNone) && content.markers.isNone
    && (Text.ofOctets? (versionBytes content.schemaVersion)).isSome

/-- The text of a file. -/
def readText (disk : Disk) (path : Path) : Except FileFault String := do
  match ← disk.lookUp path with
  | .directory => throw .isADirectory
  | .text content => pure content
  | .bytes _ => throw .notText
  | .database file => if isText file.content then pure databaseHeader else throw .notText

/-- Make an empty file at the end of a path that leads to nothing but could. -/
def touch (disk : Disk) (path : Path) : Disk :=
  match disk.resolve path with
  | .error _ => disk
  | .ok place =>
      if disk.isDirectory place.dropLast && (disk.entry? place).isNone then disk.put place (.text "")
      else disk

/-! ### Directories

A directory is made together with the ones it lies in.  They are made one by one, so
those made before one that cannot be made stay. -/

/-- Make a directory, whose parent is one, if it is not there; tells whether it is there now. -/
def makeDirectory (disk : Disk) (place : Place) : Bool × Disk :=
  match disk.entry? place with
  | none => (true, disk.put place .directory)
  | some .directory => (true, disk)
  | some _ => (false, disk)

/-- Make the directories on a path. -/
def makeAll (disk : Disk) (place : Place) : List EntryName → Bool × Disk
  | [] => (true, disk)
  | name :: rest =>
      if longestName < name.length then (false, disk)
      else
        let place := follow place name
        let (there, disk) := disk.makeDirectory place
        if there then disk.makeAll place rest else (false, disk)

/-- The names on a path that lead somewhere. -/
def names (path : Path) : List EntryName :=
  (parts path).filter fun part => part ≠ [] ∧ part ≠ stay

/-- The path ends in a dot, slashes aside, so what it names has to be a directory already. -/
def endsInDot (path : Path) : Bool := ((parts path).filter (· ≠ [])).getLast? = some stay

/-- Make a directory and the ones it lies in. -/
def createDirectories (disk : Disk) (path : Path) : Bool × Disk :=
  match checkPath path with
  | .error _ => (false, disk)
  | .ok () =>
      if endsInDot path then
        let (there, disk) := disk.makeAll (disk.start path) (names path).dropLast
        (there && disk.isDirectory (disk.target path), disk)
      else disk.makeAll (disk.start path) (names path)

end Disk

end AccessStore
