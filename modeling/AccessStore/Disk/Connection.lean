/-
Connections to the databases on a disk.

The path of a database is simplified as a text, so it may mention directories that do
not exist as long as it leaves them again; what does exist on the way is looked at,
and a file there is in the way.  A connection is made to a file, which may be created
by that, or to a database that no other connection sees.

An empty file will do as a database that was never written to, and a single byte counts
as nothing.  What a connection commits is kept in the file; one that changed nothing
leaves the file as it is.

Connections that take no notice of locks cannot read a database that keeps a log,
because a log is followed in memory that is shared under locks.  What lies beside the
file can be in the way, too, since the names of the journal, the log and the lock are
taken from the name of the file.
-/
import AccessStore.Database.Session
import AccessStore.Disk.Sharing

namespace AccessStore

/-! ### Finding the file -/

namespace Disk

/-- The name of what would stand at a place is too long. -/
def isMisnamed (place : Place) : Bool := longestName < (place.getLastD []).length

/-- How far a path may grow while it is simplified, in bytes. -/
def longestSimplified : Nat := 511

/-- The longest path of a journal, in bytes. -/
def longestJournalPath : Nat := 512

/-- The bytes of the path that leads to a place. -/
def pathSize (place : Place) : Nat := place.foldr (fun name size => name.length + 1 + size) 0

/-- The path to a place can be looked at; there need not be anything. -/
def admits (disk : Disk) (place : Place) : Bool :=
  pathSize place ≤ longestSimplified &&
    match disk.walk [] place with
    | .ok _ | .error .notFound => true
    | .error _ => false

/-- Simplify a path, part by part. -/
def simplify (disk : Disk) (place : Place) : List EntryName → Option Place
  | [] => some place
  | part :: rest =>
      let place := follow place part
      if disk.admits place then disk.simplify place rest else none

/-- The place of a database; the root is none. -/
def site? (disk : Disk) (path : Path) : Option Place :=
  (disk.simplify (disk.start path) (parts path)).filter fun place =>
    place ≠ [] ∧ pathSize (beside place journalEnding) ≤ longestJournalPath

/-- Open the file at a place; where there is none it is made, if that is asked for. -/
def openFile (disk : Disk) (mode : Mode) (place : Place) : Except StorageFault Disk :=
  if disk.isDirectory place.dropLast then
    match disk.entry? place, mode with
    | none, .create => .ok (disk.put place (.text ""))
    | none, _ => .error .cannotOpen
    | some .directory, .readOnly => .error .unreadable
    | some .directory, _ => .error .cannotOpen
    | some _, _ => .ok disk
  else .error .cannotOpen

end Disk

/-! ### Making the connection -/

/-- A connection. -/
inductive Link
  /-- To a database of its own. -/
  | own (readOnly : Bool)
  /-- To the file at a place, as an address asks for it. -/
  | file (address : Address) (place : Place)

/-- Change the database at a place, if there is one. -/
def Disk.adjust (disk : Disk) (place : Place) (f : DatabaseFile → DatabaseFile) : Disk :=
  match disk.entry? place with
  | some (.database file) => disk.put place (.database (f file))
  | _ => disk

/-- The file at a place is open already, as an address asks for it. -/
def Disk.hasSpare (disk : Disk) (address : Address) (place : Place) : Bool :=
  match disk.entry? place with
  | some (.database file) => file.hasSpare address
  | _ => false

/-- Connect to a database. -/
def Disk.connect (disk : Disk) (path : String) : Except StorageFault (Link × Disk) := do
  let address ← Address.ofText path
  match address.file? with
  | none => pure (.own address.isReadOnly, disk)
  | some path =>
      match disk.site? path with
      | none => throw .cannotOpen
      | some place =>
          if !disk.hasSpare address place && address.resembled.any (!disk.leadsSomewhere ·) then
            throw .unreadable
          let disk ← disk.openFile address.mode place
          pure (.file address place, disk.adjust place (·.opened address))

namespace Link

/-- A file of this size will do as a database that was never written to. -/
def isUnwritten (size : Nat) : Bool := size ≤ 1

/-- The database in an entry, if it holds one or nothing yet. -/
def held? : Entry → Option DatabaseFile
  | .database kept => some kept
  | .text content => if isUnwritten content.utf8ByteSize then some { content := .blank } else none
  | .bytes size => if isUnwritten size then some { content := .blank } else none
  | .directory => none

/-- Something was written to an entry. -/
def isWritten (entry : Entry) : Bool :=
  (held? entry).all fun kept => kept.content ≠ .blank || kept.logged

/-- Why the file at a place cannot be locked, not even for reading. -/
def lockFault? (disk : Disk) (address : Address) (place : Place) : Option StorageFault :=
  let lock := Disk.beside place Disk.lockEnding
  if !address.usesLockDirectory then none
  else if Disk.isMisnamed lock then some .unreadable
  else if (disk.entry? lock).isSome then some .busy
  else none

/-- Why a log or a journal that was left beside the file at a place cannot be looked at.  Where
there is a lock, the journal is its holder's and not left. -/
def leftoverFault? (disk : Disk) (address : Address) (place : Place) (entry : Entry) :
    Option StorageFault :=
  let written := isWritten entry
  if address.immutable then none
  else if written && !address.usesLockDirectory
      && disk.isDirectory (Disk.beside place Disk.journalEnding) then some .unreadable
  else if disk.isDirectory (Disk.beside place Disk.logEnding) then
    some (if written then .cannotOpen else .unreadable)
  else none

/-- Why what an entry holds cannot be read. -/
def contentFault? (disk : Disk) (address : Address) (place : Place) (entry : Entry) :
    Option StorageFault :=
  match held? entry with
  | none => some .notADatabase
  | some kept =>
      if kept.logged && !address.followsLog disk place kept.locked then some .cannotOpen else none

/-- What keeps a connection from writing to a file. -/
def obstacle? (disk : Disk) (address : Address) (place : Place) (kept : DatabaseFile) :
    Option Obstacle :=
  let journal := Disk.beside place Disk.journalEnding
  if address.isReadOnly then some .readOnly
  else if kept.locked && !address.ignoresLocks then some .lock
  else if kept.logged && !address.ignoresLocks && address.borrowsMemory disk place then some .memory
  else if Disk.isMisnamed journal || disk.isDirectory journal then some .journal
  else none

/-- What a connection sees. -/
def session (disk : Disk) : Link → Session
  | .own readOnly => { database := .blank, obstacle := if readOnly then some .readOnly else none }
  | .file address place =>
      let entry := (disk.entry? place).getD (.text "")
      let kept := (held? entry).getD { content := .blank }
      { database := kept.content
        bar := lockFault? disk address place <|> leftoverFault? disk address place entry
          <|> contentFault? disk address place entry
        obstacle := obstacle? disk address place kept }

end Link

/-! ### Working on a database -/

namespace Disk

/-- The database at a place, a blank one where there is none. -/
def databaseAt (disk : Disk) (place : Place) : DatabaseFile :=
  ((disk.entry? place).bind Link.held?).getD { content := .blank }

/-- Keep content at a place.  A file that was never written to stays so if there is nothing to
write. -/
def keep (disk : Disk) (place : Place) (content : Database) : Disk :=
  if (disk.databaseAt place).content = content then disk
  else disk.put place (.database { disk.databaseAt place with content })

/-- Take the lock for writing to the database at a place. -/
def lock (disk : Disk) (place : Place) : Disk :=
  let kept := disk.databaseAt place
  let disk := if kept.logged then disk.layOut place true else disk
  disk.put place (.database kept.locking)

/-- Give up the lock for writing to the database at a place. -/
def unlock (disk : Disk) (place : Place) : Disk :=
  let disk := if (disk.databaseAt place).logged then disk.clearAway place true else disk
  disk.adjust place DatabaseFile.unlocking

/-- Keep what a connection has committed. -/
def store (disk : Disk) (link : Link) (content : Database) : Disk :=
  match link with
  | .own _ => disk
  | .file address place =>
      let disk := disk.keep place content
      let kept := disk.databaseAt place
      if kept.logged && !kept.locked then address.tidy disk place else disk

/-- Give up a connection. -/
def close (disk : Disk) (link : Link) : Disk :=
  match link with
  | .own _ => disk
  | .file address place => disk.adjust place (·.closed address)

/-- Work on a database through a connection, and keep what was committed. -/
def work {ε α : Type} (disk : Disk) (link : Link) (action : Action ε α) : Except ε α × Disk :=
  match action (link.session disk) with
  | .ok a session => (.ok a, disk.store link session.database)
  | .error e session => (.error e, disk.store link session.database)

/-- Have the database in a file keep a log, unless it does so already or the connection could not
follow one.  The file is written to for that. -/
def startLog (disk : Disk) (link : Link) : Except StorageFault Unit × Disk :=
  match link with
  | .own _ => (.ok (), disk)
  | .file address place =>
      if address.ignoresLocks || (disk.databaseAt place).logged then (.ok (), disk)
      else
        match disk.work link Action.claim with
        | (.error fault, disk) => (.error fault, disk)
        | (.ok (), disk) =>
            (.ok (), disk.put place (.database { disk.databaseAt place with logged := true }))

/-- Work on a database through a connection made for that, and give it up. -/
def visit {ε α : Type} (disk : Disk) (path : String) (refused : StorageFault → ε)
    (action : Action ε α) : Except ε α × Disk :=
  match disk.connect path with
  | .error fault => (.error (refused fault), disk)
  | .ok (link, disk) =>
      let (result, disk) := disk.work link action
      (result, disk.close link)

end Disk

end AccessStore
