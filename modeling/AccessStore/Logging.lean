/-
Logging of a process.

A process logs at one level into one directory, which the first request that succeeds
settles for good.  A later request has to ask for the same, or it is refused.  Levels
are known under their names in any case, and directories are compared name by name, so
that slashes and dots that lead nowhere do not matter.

Events are logged to a file in the directory, which is made for the first event of a
level that is wanted.  The lines are gathered in memory and written later, so that a
file which nobody has written to yet is empty.
-/
import AccessStore.Disk
import AccessStore.Event
import AccessStore.Text.Blank

namespace AccessStore

/-- Where a process logs, and what. -/
structure LogSettings where
  level : Level
  /-- The directory, as it was first written. -/
  directory : String
  deriving DecidableEq, Repr

/-- Why a request for logging is refused. -/
inductive LoggingFault
  | unknownLevel (name : String)
  | emptyDirectory
  | relativeDirectory (path : String)
  | cannotCreate (path : String)
  | otherDirectory (active wanted : String)
  | otherLevel (active wanted : Level)
  deriving DecidableEq, Repr

/-- The refusal in words. -/
def LoggingFault.message : LoggingFault → String
  | unknownLevel name =>
      "unsupported log level `" ++ name ++ "`; expected trace|debug|info|warn|error"
  | emptyDirectory => "log_dir cannot be empty"
  | relativeDirectory path => "log_dir must be an absolute path, got `" ++ path ++ "`"
  | cannotCreate path => "failed to create log directory `" ++ path ++ "`"
  | otherDirectory active wanted =>
      "logging already writes to `" ++ active ++ "`; refusing to switch to `" ++ wanted ++ "`"
  | otherLevel active wanted =>
      "logging already runs at `" ++ active.name ++ "`; refusing to switch to `" ++ wanted.name ++ "`"

namespace Logging

/-- The level that applies where none is given. -/
def defaultLevel : Level := .debug

/-- The names of levels; one of them has two. -/
def levelNames : List (String × Level) :=
  ("warning", .warn) :: Level.all.map fun l => (l.name, l)

/-- A text in lower case, as far as it is ASCII, without the blank characters at its ends. -/
def folded (s : String) : String :=
  String.ofList ((Text.trimChars s.toList).map Char.toLower)

/-- The level that a text names. -/
def parseLevel (s : String) : Except LoggingFault Level :=
  match levelNames.find? (·.1 = folded s) with
  | some named => .ok named.2
  | none => .error (.unknownLevel (folded s))

/-- The directory that a text names. -/
def parseDirectory (s : String) : Except LoggingFault String :=
  let path := Text.trim s
  if path = "" then .error .emptyDirectory
  else if Disk.isAbsolute (.ofText path) then .ok path
  else .error (.relativeDirectory path)

/-- The settings that two texts ask for. -/
def parse (level directory : String) : Except LoggingFault LogSettings := do
  let level ← parseLevel level
  let directory ← parseDirectory directory
  pure ⟨level, directory⟩

/-- Two absolute paths name the same directory. -/
def sameDirectory (a b : String) : Bool := Disk.names (.ofText a) = Disk.names (.ofText b)

/-- The wanted settings do not contradict those in force. -/
def agree (active wanted : LogSettings) : Except LoggingFault Unit :=
  if !sameDirectory active.directory wanted.directory then
    .error (.otherDirectory active.directory wanted.directory)
  else if active.level ≠ wanted.level then .error (.otherLevel active.level wanted.level)
  else .ok ()

/-- Ask for logging.  If none is in force it is started, which can fail.  The answer comes with
the settings in force afterwards, and with the world as a start left it. -/
def request {σ : Type} (start : LogSettings → σ → Except LoggingFault Unit × σ)
    (active : Option LogSettings) (level directory : String) (world : σ) :
    Except LoggingFault Unit × Option LogSettings × σ :=
  match parse level directory with
  | .error fault => (.error fault, active, world)
  | .ok wanted =>
      match active with
      | some settings => (agree settings wanted, active, world)
      | none =>
          match start wanted world with
          | (.ok (), world) => (.ok (), some wanted, world)
          | (.error fault, world) => (.error fault, none, world)

/-! ### The file -/

/-- What the file is called that events are logged to. -/
def fileName : String := "secstore_rCURRENT.log"

/-- The path to the file that events are logged to. -/
def filePath (directory : String) : Path := .ofText (directory ++ "/" ++ fileName)

/-- Log events on a disk. -/
def write (settings : LogSettings) (events : List Event) (disk : Disk) : Disk :=
  if events.any (settings.level.upTo ·.level) then disk.touch (filePath settings.directory) else disk

/-- The event of logging that has been started. -/
def started (settings : LogSettings) : Event :=
  .of .info "logging_init" "logging"
    [("status", .text "ok"), ("level", .text settings.level.name),
     ("log_dir", .text settings.directory), ("version", .text release)]

/-- Start logging on a disk: the directory must be there or be made. -/
def start (settings : LogSettings) (disk : Disk) : Except LoggingFault Unit × Disk :=
  match disk.createDirectories (.ofText settings.directory) with
  | (true, disk) => (.ok (), write settings [started settings] disk)
  | (false, disk) => (.error (.cannotCreate settings.directory), disk)

/-! ### Panics -/

/-- How much of a panic's text is logged. -/
def longestPanic : Nat := 160

/-- What stands for a panic's text where it has none. -/
def textlessPanic : String := "non-string panic payload"

/-- A text on one line, cut if it is too long. -/
def oneLine (s : String) : String :=
  let flat := s.toList.map fun c => if c = '\n' ∨ c = '\r' then ' ' else c
  let rest := if longestPanic < flat.length then ['.', '.', '.'] else []
  String.ofList (flat.take longestPanic ++ rest)

/-- What is logged of a panic, by its text if it has one. -/
def panicText (payload : Option String) : String := oneLine (payload.getD textlessPanic)

end Logging

end AccessStore
