/-
Reading settings and defaults.

Both are documents.  A document of settings is read from a text or from a file, and
what could be read must also make sense.  The defaults are read from the file that the
settings name, or else are the built-in ones.
-/
import AccessStore.Config
import AccessStore.Database.Opening
import AccessStore.Defaults
import AccessStore.Logging

namespace AccessStore

/-- The account of a file that cannot be read; its end is the system's and left out. -/
def FileFault.account (what path : String) (_ : FileFault) : Account :=
  .because ("failed to read " ++ what ++ " `" ++ path ++ "`")
    { message := Account.foreignWords, foreign := true }

/-- Why there are no defaults. -/
inductive DefaultsError
  | unreadable (path : String) (fault : FileFault)
  | undecodable (fault : Json.Fault)
  deriving DecidableEq, Repr

/-- The failure in words. -/
def DefaultsError.account : DefaultsError → Account
  | unreadable path fault => fault.account "defaults" path
  | undecodable fault =>
      .because ("invalid defaults document: " ++ fault.message) { message := fault.message }

/-- Why a store cannot be set up. -/
inductive SetupError
  | unreadable (path : String) (fault : FileFault)
  | undecodable (fault : Json.Fault)
  | invalid (reason : InvalidConfig)
  | database (error : DatabaseError)
  | defaults (error : DefaultsError)
  | logging (fault : LoggingFault)
  deriving DecidableEq, Repr

/-- The failure in words. -/
def SetupError.account : SetupError → Account
  | unreadable path fault => fault.account "config" path
  | undecodable fault =>
      .because ("invalid config document: " ++ fault.message) { message := fault.message }
  | invalid reason => { message := "invalid config: " ++ reason.reason }
  | database error => error.account.because error.account.message
  | defaults error => error.account.because error.account.message
  | logging fault => { message := "logging setup failed: " ++ fault.message }

namespace Setup

/-- The defaults written by a text. -/
def defaultsOfText (s : String) : Except DefaultsError Defaults :=
  (Defaults.ofText s).mapError .undecodable

/-- The defaults in a file. -/
def defaultsOfFile (disk : Disk) (path : String) : Except DefaultsError Defaults := do
  let s ← (disk.readText (.ofText path)).mapError (.unreadable path)
  defaultsOfText s

/-- The defaults that settings ask for. -/
def defaultsOf (disk : Disk) (config : Config) : Except DefaultsError Defaults :=
  match config.defaultsPath with
  | some path => defaultsOfFile disk path
  | none => .ok .builtin

/-- The settings written by a text. -/
def configOfText (s : String) : Except SetupError Config := do
  let config ← (Config.schema.decode.run s).mapError .undecodable
  match config.invalid? with
  | some reason => throw (.invalid reason)
  | none => pure config

/-- The settings in a file. -/
def configOfFile (disk : Disk) (path : String) : Except SetupError Config := do
  let s ← (disk.readText (.ofText path)).mapError (.unreadable path)
  configOfText s

/-- Start logging as the settings ask; nothing is started where they name no directory.  Tells
whether the process logs for these settings. -/
def startLogging {σ : Type} (start : LogSettings → σ → Except LoggingFault Unit × σ)
    (active : Option LogSettings) (config : Config) (world : σ) :
    Except SetupError Bool × Option LogSettings × σ :=
  match config.logDir with
  | none => (.ok false, active, world)
  | some directory =>
      let level := config.logLevel.getD Logging.defaultLevel.name
      let (result, rest) := Logging.request start active level directory world
      ((result.map fun _ => true).mapError .logging, rest)

end Setup

end AccessStore
