/-
A store at work.

A service has a database, in its own memory or in a file, the defaults to seed it with,
its registrations and its gate.  A start seeds the database behind the closed gate; a
call passes the gate first, then works through a connection of its own, and what it
told comes before all that happens next.
-/
import AccessStore.Call
import AccessStore.Gate
import AccessStore.Seeding
import AccessStore.Setup

namespace AccessStore

/-- Where a service keeps its records. -/
inductive Backing
  | memory (database : Database)
  | file (path : String)

/-- A store over one database. -/
structure Service where
  backing : Backing
  defaults : Defaults
  registrations : PerKind Registration := .fill .fresh
  gate : Gate := .new

/-- A service, the disk it works on, and the events so far. -/
structure Host where
  service : Service
  disk : Disk
  journal : List Event := []

/-- Something a service does, which can fail. -/
abbrev Task (ε : Type) := EStateM ε Host

namespace Service

variable {ε α : Type}

/-- A service over a new database in memory. -/
def inMemory (defaults : Defaults) : Service := { backing := .memory .migrated, defaults }

/-- A service over the database in a file, which has been opened. -/
def inFile (path : String) (defaults : Defaults) : Service := { backing := .file path, defaults }

/-- The records are kept in memory. -/
def isInMemory (service : Service) : Bool :=
  match service.backing with
  | .memory _ => true
  | .file _ => false

/-- The event of connecting to a file. -/
def connected : Event := .of .trace "db_connect" "db" [("status", .text "ok")]

/-- Tell an event. -/
def tell (event : Event) : Task ε Unit :=
  modify fun h => { h with journal := h.journal ++ [event] }

/-- A connection to the service's database: the link to its file, if it is in one, and what the
connection sees. -/
def connect : Task StorageFault (Option Link × Session) := fun h =>
  match h.service.backing with
  | .memory database => .ok (none, { database }) h
  | .file path =>
      match h.disk.connect path with
      | .ok (link, disk) =>
          .ok (some link, link.session disk) { h with disk, journal := h.journal ++ [connected] }
      | .error fault => .error fault h

/-- Give up a connection: keep what it committed and what it told. -/
def release (link : Option Link) (s : Session) (h : Host) : Host :=
  let h := { h with journal := h.journal ++ s.journal }
  match link with
  | none => { h with service := { h.service with backing := .memory s.database } }
  | some link => { h with disk := (h.disk.store link s.database).close link }

/-- Work on the database through a connection of its own. -/
def work (refused : StorageFault → ε) (action : Action ε α) : Task ε α := fun h =>
  match connect h with
  | .error fault h => .error (refused fault) h
  | .ok (link, session) h =>
      match action session with
      | .ok a s => .ok a (release link s h)
      | .error e s => .error e (release link s h)

/-! ### Calls -/

/-- Only an open gate lets calls through. -/
def pass : Task CallError Unit := fun h =>
  if h.service.gate.isOpen then .ok () h else .error .notStarted h

/-- Answer a call. -/
def call (c : Call) : Task CallError Answer := do
  tell c.event
  pass
  work CallError.ofStorage c.program.run

/-- Count the records of every kind. -/
def counts : Task CallError (PerKind Nat) := do
  pass
  work CallError.ofStorage Call.countAll.run

/-! ### Starting and stopping -/

/-- An event of starting the store. -/
def starting (level : Level) (status : String) (details : List (String × Detail)) : Event :=
  .of level "store_start" "security_store" (("status", .text status) :: details)

/-- The event of a start that failed. -/
def startFailed (error : CallError) : Event :=
  starting .error "error" [("duration_ms", .elapsed), ("error", .text error.account.message)]

/-- The event of a start that succeeded. -/
def startSucceeded : Event := starting .info "ok" [("duration_ms", .elapsed)]

/-- The event of a stop. -/
def stopped : Event := .of .info "store_stop" "security_store" [("status", .text "ok")]

/-- Seed the database through one connection. -/
def seed : Task (Stop CallError) (List KindReport) := fun h =>
  match connect h with
  | .error fault h => .error (.failed (CallError.ofStorage fault)) h
  | .ok (link, session) h =>
      let settle (stage : Seeding.Stage) : Host :=
        release link stage.session
          { h with service := { h.service with registrations := stage.registrations } }
      match Seeding.seedAll h.service.defaults ⟨h.service.registrations, session⟩ with
      | .ok reports stage => .ok reports (settle stage)
      | .error stop stage => .error stop (settle stage)

/-- What a start does behind the closed gate. -/
def startHook (h : Host) : Except (Stop CallError) (List KindReport) × Host :=
  match (do tell (starting .info "start" []); seed : Task (Stop CallError) _) h with
  | .ok reports h => (.ok reports, h)
  | .error stop h => (.error stop, h)

/-- Start the service; nothing is reported if it was started. -/
def start : Task (Stop CallError) (Option (List KindReport)) := fun h =>
  let (result, gate, h) := h.service.gate.start startHook h
  let h := { h with service := { h.service with gate } }
  match result with
  | .ok (some reports) => .ok (some reports) { h with journal := h.journal ++ [startSucceeded] }
  | .ok none => .ok none h
  | .error (.failed error) =>
      .error (.failed error) { h with journal := h.journal ++ [startFailed error] }
  | .error .panicked => .error .panicked h

/-- Stop the service; false if it was not started. -/
def stop : Task ε Bool := fun h =>
  let (was, gate) := h.service.gate.stop
  let h := { h with service := { h.service with gate } }
  .ok was (if was then { h with journal := h.journal ++ [stopped] } else h)

end Service

/-! ### Setting up -/

namespace Setup

/-- How the opening of a store went. -/
structure Outcome (ε : Type) where
  result : Except (Stop ε) Service
  disk : Disk
  events : List Event

/-- A store over a database, which is opened first, and with defaults, which are read next. -/
def service {ε : Type} (disk : Disk) (location : Location) (wait : Nat)
    (refused : DatabaseError → ε) (defaults : Disk → Except ε Defaults) : Outcome ε :=
  match location with
  | .memory =>
      ⟨((defaults disk).map Service.inMemory).mapError .failed, disk, [Opening.success "memory"]⟩
  | .file path =>
      let opened := Opening.file disk path wait
      match opened.result with
      | .error stop => ⟨.error (stop.map refused), opened.disk, opened.events⟩
      | .ok () =>
          ⟨((defaults opened.disk).map (Service.inFile path)).mapError .failed, opened.disk,
            opened.events⟩

/-- The store that settings describe. -/
def openStore (disk : Disk) (config : Config) : Outcome SetupError :=
  service disk config.database config.busyTimeoutMs .database fun disk =>
    (defaultsOf disk config).mapError .defaults

end Setup

end AccessStore
