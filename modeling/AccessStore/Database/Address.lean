/-
Addresses of databases.

A database is addressed by the path of its file.  An address that starts with `file:`
tells more than a path: it may name a host, which has to be this one, and it may carry
options after a question mark and a remark after a hash sign.  It is split before the
octets in its parts are decoded, so an encoded sign splits nothing, and the path that
comes out need not be a text.

The options say what a connection may do with the file and how it gets along with
others.  Modes are judged one after another, so the first bad one is told; of the
options that are switched on, the first of a name counts.  Options of other names mean
nothing here.
-/
import AccessStore.Disk
import AccessStore.Failure
import AccessStore.Text.Percent

namespace AccessStore

/-- What a connection may do with the file of its database. -/
inductive Mode
  /-- Read a file that is there. -/
  | readOnly
  /-- Read and write a file that is there. -/
  | readWrite
  /-- Read and write a file, which is created where there is none. -/
  | create
  /-- Keep the database in memory; no file is looked at. -/
  | memory
  deriving DecidableEq, Repr

namespace Mode

/-- The modes by the names that options give them. -/
def names : List (String × Mode) :=
  [("ro", readOnly), ("rw", readWrite), ("rwc", create), ("memory", memory)]

/-- A later option may ask for another mode than one before it, but for no more. -/
def allows : Mode → Mode → Bool
  | _, memory | memory, _ | create, _ | _, readOnly | readWrite, readWrite => true
  | _, _ => false

end Mode

/-- How files are dealt with, and locks on them in particular. -/
inductive FileSystem
  /-- Locks and memory are shared with everybody. -/
  | shared
  /-- Nobody locks anything. -/
  | unlocked
  /-- A lock is a directory beside the file. -/
  | lockDirectory
  /-- Locks are shared with everybody, memory only within this process. -/
  | exclusive
  /-- There are no files. -/
  | fileless
  deriving DecidableEq, Repr

/-- The ways of dealing with files by the names that options give them. -/
def FileSystem.names : List (String × FileSystem) :=
  [("unix", shared), ("unix-none", unlocked), ("unix-dotfile", lockDirectory),
   ("unix-excl", exclusive), ("memdb", fileless)]

/-- How to connect to a database. -/
structure Address where
  /-- The path of its file. -/
  path : Path
  mode : Mode := .create
  system : FileSystem := .shared
  /-- Nobody changes the file, so it is not written to either. -/
  immutable : Bool := false
  /-- This connection locks nothing. -/
  unlocked : Bool := false
  /-- This connection makes no memory to be shared; it uses what others have made. -/
  memoryUser : Bool := false
  /-- The path to a file that a new file is to resemble. -/
  resembled : Option Path := none
  deriving DecidableEq, Repr

namespace Address

/-- What an address starts with that is more than a path. -/
def scheme : List Char := "file:".toList

/-- What stands after the host, which is left out or this one. -/
def afterHost : List Char → Except StorageFault (List Char)
  | '/' :: '/' :: rest =>
      let host := rest.takeWhile (· ≠ '/')
      if host = [] ∨ host = "localhost".toList then .ok (rest.dropWhile (· ≠ '/'))
      else .error .unknown
  | cs => .ok cs

/-! ### Options -/

/-- The name and the value of an option. -/
def option (cs : List Char) : List UInt8 × List UInt8 :=
  (Text.unescape (cs.takeWhile (· ≠ '=')), Text.unescape ((cs.dropWhile (· ≠ '=')).drop 1))

/-- The options, those without a name left out. -/
def options (cs : List Char) : List (List UInt8 × List UInt8) :=
  ((cs.splitOn '&').map option).filter (·.1 ≠ [])

/-- The value of the first option of a name. -/
def value? (options : List (List UInt8 × List UInt8)) (name : String) : Option (List UInt8) :=
  options.lookup (Text.octets name)

/-- What octets name. -/
def named {α : Type} (names : List (String × α)) (bytes : List UInt8) : Except StorageFault α :=
  match names.find? (Text.octets ·.1 = bytes) with
  | some entry => .ok entry.2
  | none => .error .unknown

/-- The number that a text starts with, in hexadecimal digits or in decimal ones. -/
def leadingNumber : List Char → Nat
  | '0' :: 'x' :: digit :: rest | '0' :: 'X' :: digit :: rest => Text.hexNumber (digit :: rest)
  | cs => Text.digitsValue (cs.takeWhile Char.isDigit)

/-- The words that switch an option on. -/
def affirmations : List String := ["on", "yes", "true"]

/-- An option is switched on by a word or by a number, of which the last octet counts as long as
the number fits in 31 bits. -/
def isOn (value : List UInt8) : Bool :=
  let cs := Text.singly value
  if cs.head?.any Char.isDigit then leadingNumber cs < 1 <<< 31 ∧ leadingNumber cs % 256 ≠ 0
  else String.ofList (cs.map Char.toLower) ∈ affirmations

/-- The first option of a name switches on what it names. -/
def switchedOn (options : List (List UInt8 × List UInt8)) (name : String) : Bool :=
  (value? options name).any isOn

/-- The ways for connections to share what they have read; none of them shows. -/
def sharings : List (String × Unit) := [("shared", ()), ("private", ())]

/-- The mode after an option, which may be a bad one. -/
def judge (mode : Mode) (option : List UInt8 × List UInt8) : Except StorageFault Mode := do
  if option.1 = Text.octets "mode" then
    let wanted ← named Mode.names option.2
    if mode.allows wanted then pure wanted else throw .notPermitted
  else if option.1 = Text.octets "cache" then
    named sharings option.2
    pure mode
  else pure mode

/-- The address of a path with options. -/
def ofOptions (path : Path) (options : List (List UInt8 × List UInt8)) :
    Except StorageFault Address := do
  let mode ← options.foldlM judge .create
  let system ← (value? options.reverse "vfs").elim (.ok .shared) (named FileSystem.names)
  pure
    { path, mode, system
      immutable := switchedOn options "immutable"
      unlocked := switchedOn options "nolock"
      memoryUser := switchedOn options "readonly_shm"
      resembled := value? options "modeof" }

/-- The address that a text gives; a zero character has no place in it. -/
def ofText (s : String) : Except StorageFault Address :=
  let cs := s.toList
  if '\x00' ∈ cs then .error .unknown
  else if scheme.isPrefixOf cs then do
    let cs := (← afterHost (cs.drop scheme.length)).takeWhile (· ≠ '#')
    ofOptions (Text.unescape (cs.takeWhile (· ≠ '?'))) (options ((cs.dropWhile (· ≠ '?')).drop 1))
  else .ok { path := Text.octets s }

/-! ### What an address leads to -/

/-- The address asks for a name, as opposed to a place in memory. -/
def isNamed (a : Address) : Bool :=
  a.path ≠ [] && a.path ≠ Text.octets ":memory:" && a.mode ≠ .memory

/-- The path of the file that the address leads to.  Where there is none, every connection has a
database of its own. -/
def file? (a : Address) : Option Path :=
  if a.isNamed && a.system ≠ .fileless then some a.path else none

/-- A connection only reads. -/
def isReadOnly (a : Address) : Bool := a.mode = .readOnly || (a.immutable && a.isNamed)

end Address

end AccessStore
