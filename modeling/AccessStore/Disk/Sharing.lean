/-
What connections to a file share.

Connections to the file of a database have to get along, and some of them take no
notice of the others.  Three things are shared: the lock for writing, the memory in
which a log is followed, and open files.

The log and the memory are files beside the file of the database.  Whoever follows a
log makes them, unless they are there, and takes them away after use.  A connection
that can only read leaves them behind, and so does one that only uses the memory which
others have made.  Whoever holds the lock for writing uses both all the time.

Closing a file would give up the lock on it, even if the lock is held through another
connection.  So as long as there is a lock files are not closed, and who comes next
uses one of those that are open rather than opening the file again.
-/
import AccessStore.Database.Address

namespace AccessStore

/-! ### The file -/

namespace DatabaseFile

/-- The file is open already, as a connection needs it. -/
def hasSpare (file : DatabaseFile) (a : Address) : Bool := file.spares.contains (a.mode = .readOnly)

/-- The file once a connection is made to it. -/
def opened (file : DatabaseFile) (a : Address) : DatabaseFile :=
  { file with spares := file.spares.erase (a.mode = .readOnly) }

/-- The file once a connection to it is given up. -/
def closed (file : DatabaseFile) (a : Address) : DatabaseFile :=
  if file.locked && (a.system = .shared || a.system = .exclusive) then
    { file with spares := (a.mode = .readOnly) :: file.spares }
  else file

/-- The file with the lock for writing taken. -/
def locking (file : DatabaseFile) : DatabaseFile := { file with locked := true }

/-- The file with the lock for writing given up. -/
def unlocking (file : DatabaseFile) : DatabaseFile := { file with locked := false, spares := [] }

end DatabaseFile

/-! ### What lies beside it -/

namespace Disk

/-- What the journal of a database is called, after the name of its file. -/
def journalEnding : EntryName := Text.octets "-journal"

/-- What the log of a database is called. -/
def logEnding : EntryName := Text.octets "-wal"

/-- What the memory is called in which the log of a database is followed. -/
def memoryEnding : EntryName := Text.octets "-shm"

/-- What the directory is called that locks a database. -/
def lockEnding : EntryName := Text.octets ".lock"

/-- The place of what is called like the file at a place, with an ending. -/
def beside (place : Place) (ending : EntryName) : Place :=
  place.dropLast ++ [place.getLastD [] ++ ending]

/-- The size of the memory in which a log is followed, in bytes. -/
def memorySize : Nat := 32768

/-- Have the log and, if that is asked for, the memory beside the file at a place. -/
def layOut (disk : Disk) (place : Place) (memory : Bool) : Disk :=
  let disk := disk.putFile (beside place logEnding) (.text "")
  if memory then disk.putFile (beside place memoryEnding) (.bytes memorySize) else disk

/-- Take away the log and, if that is asked for, the memory beside the file at a place. -/
def clearAway (disk : Disk) (place : Place) (memory : Bool) : Disk :=
  let disk := disk.removeFile (beside place logEnding)
  if memory then disk.removeFile (beside place memoryEnding) else disk

end Disk

/-! ### Following a log -/

namespace Address

/-- A connection locks a file with a directory beside it. -/
def usesLockDirectory (a : Address) : Bool :=
  a.system = .lockDirectory && !a.unlocked && !a.immutable

/-- A connection takes no notice of the locks that others hold on the file. -/
def ignoresLocks (a : Address) : Bool :=
  a.immutable || a.unlocked || a.system = .unlocked || a.system = .lockDirectory

/-- A connection has memory of its own to follow a log. -/
def ownsMemory (a : Address) : Bool := a.system = .exclusive && a.mode ≠ .readOnly

/-- A connection cannot make the memory that it needs to follow a log, so it can only read it. -/
def borrowsMemory (a : Address) (disk : Disk) (place : Place) : Bool :=
  !a.ownsMemory && (a.memoryUser || disk.isDirectory (Disk.beside place Disk.memoryEnding))

/-- A connection can read a database that keeps a log; the lock may be held. -/
def followsLog (a : Address) (disk : Disk) (place : Place) (locked : Bool) : Bool :=
  a.immutable ||
    (!a.ignoresLocks &&
      (locked || !a.borrowsMemory disk place
        || (disk.entry? (Disk.beside place Disk.memoryEnding)).isSome))

/-- The disk once a connection has followed a log. -/
def tidy (a : Address) (disk : Disk) (place : Place) : Disk :=
  if a.ignoresLocks then disk
  else if a.mode = .readOnly || a.borrowsMemory disk place then
    disk.layOut place (!a.borrowsMemory disk place)
  else disk.clearAway place (!a.ownsMemory)

end Address

end AccessStore
