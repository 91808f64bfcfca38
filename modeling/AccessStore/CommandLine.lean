/-
The command line.

A run reads the settings from the file that its first argument names, or takes the
default ones, starts logging if they ask for it, opens and starts the store, and prints
what was seeded and how many records there are.  Whatever fails ends the run; what was
printed before stays printed.  What happened on the way is logged, and a failure too.
-/
import AccessStore.Service

namespace AccessStore

/-- How a run of the command line ends. -/
structure RunResult where
  /-- The lines printed. -/
  output : List String
  /-- What went wrong, in words. -/
  failure : Option (Stop String)
  disk : Disk
  /-- What there was to log. -/
  events : List Event := []

namespace RunResult

/-- The status that a run ends with. -/
def exitCode (r : RunResult) : Nat :=
  match r.failure with
  | none => 0
  | some (.failed _) => 1
  | some .panicked => 101

/-- What is said of a failure; a panic has words of its own. -/
def complaint (r : RunResult) : Option String :=
  match r.failure with
  | some (.failed message) => some message
  | _ => none

end RunResult

namespace CommandLine

/-- The line about a kind that was prepared. -/
def reportLine (r : KindReport) : String :=
  "bootstrap kind=" ++ r.kind.table ++ " first_use=" ++ (if r.firstUse then "true" else "false")
    ++ " seeded=" ++ Text.decimal r.seeded

/-- The line about this library. -/
def releaseLine : String := "secstore_core version=" ++ release

/-- The line about the records. -/
def countsLine (counts : PerKind Nat) : String :=
  " ".intercalate (Kind.all.map fun kind => kind.table ++ "=" ++ Text.decimal (counts.get kind))

/-- The settings of a run. -/
def configOf (disk : Disk) : List String → Except SetupError Config
  | path :: _ => Setup.configOfFile disk path
  | [] => .ok {}

/-- The files and directories that settings name. -/
def paths (config : Config) : List Path :=
  let logDirectory := config.logDir.map Text.trim
  config.defaultsPath.toList.map .ofText ++ logDirectory.toList.map .ofText
    ++ logDirectory.toList.map Logging.filePath ++
    match config.database with
    | .file path => (Address.ofText path).toOption.toList.flatMap fun a => a.file?.toList
    | .memory => []

/-- The event of a run that failed. -/
def failed : Stop String → Event
  | .failed message => .of .error "cli_run" "cli" [("status", .text "error"), ("error", .text message)]
  | .panicked => .of .error "panic_captured" "core" [("status", .text "error")]

/-- Start a store and print what it reports and holds. -/
def serve (service : Service) (disk : Disk) (events : List Event) : RunResult :=
  match Service.start { service, disk, journal := events } with
  | .error stop host => ⟨[], some (stop.map (·.account.message)), host.disk, host.journal⟩
  | .ok reports host =>
      let seeded := (reports.getD []).map reportLine
      match Service.counts host with
      | .error error host => ⟨seeded, some (.failed error.account.message), host.disk, host.journal⟩
      | .ok counts host => ⟨seeded ++ [releaseLine, countsLine counts], none, host.disk, host.journal⟩

/-- Open the store that settings describe, start it and print what it reports and holds. -/
def runStore (config : Config) (disk : Disk) : RunResult :=
  let opened := Setup.openStore disk config
  match opened.result with
  | .error stop => ⟨[], some (stop.map (·.account.message)), opened.disk, opened.events⟩
  | .ok service => serve service opened.disk opened.events

/-- Log what a run had to tell, and its failure. -/
def logged (settings : LogSettings) (r : RunResult) : RunResult :=
  { r with disk := Logging.write settings (r.events ++ (r.failure.map failed).toList) r.disk }

/-- Run the command line on a disk. -/
def run (arguments : List String) (disk : Disk) : RunResult :=
  match configOf disk arguments with
  | .error error => { output := [], failure := some (.failed error.account.message), disk }
  | .ok config =>
      match Setup.startLogging Logging.start none config disk with
      | (.error error, _, disk) =>
          { output := [], failure := some (.failed error.account.message), disk }
      | (.ok _, none, disk) => runStore config disk
      | (.ok _, some settings, disk) => logged settings (runStore config disk)

end CommandLine

end AccessStore
