/-
Sessions.

A client works on a database through a connection of its own.  A session is what such
a connection sees: the committed content, the content of its own open transaction if
it has one, what keeps it from reading or from writing, and the events told so far.

What a client does is an action on a session.  Statements read the open transaction if
there is one and the committed content otherwise.  A statement that writes needs the
lock for writing, which an open transaction holds already.  Where a database is only to
be read, transactions are opened all the same, and the statement that writes is refused.
Where it cannot be read, every statement is refused.
-/
import AccessStore.Database
import AccessStore.Event

namespace AccessStore

/-- What keeps a connection from writing. -/
inductive Obstacle
  /-- Another connection holds the lock for writing. -/
  | lock
  /-- The memory in which the log is followed is only to be read. -/
  | memory
  /-- There can be no journal beside the file, and nothing is written without one. -/
  | journal
  /-- The database is only to be read. -/
  | readOnly
  deriving DecidableEq, Repr

/-- How the storage refuses to write. -/
def Obstacle.fault : Obstacle → StorageFault
  | lock => .busy
  | memory => .readOnly
  | journal => .cannotOpen
  | readOnly => .readOnly

/-- A connection to a database. -/
structure Session where
  /-- What has been committed. -/
  database : Database
  /-- What the open transaction has made of it. -/
  transaction : Option Database := none
  /-- Why no statement works, not even one that reads. -/
  bar : Option StorageFault := none
  /-- What keeps it from writing. -/
  obstacle : Option Obstacle := none
  /-- The events so far. -/
  journal : List Event := []
  deriving DecidableEq

namespace Session

/-- The content that statements see. -/
def view (s : Session) : Database := s.transaction.getD s.database

/-- Put other content in the place of what statements see. -/
def setView (s : Session) (db : Database) : Session :=
  match s.transaction with
  | some _ => { s with transaction := some db }
  | none => { s with database := db }

/-- Why no transaction can be opened; one on a database that is only to be read can. -/
def barrier? (s : Session) : Option StorageFault :=
  s.bar <|> (s.obstacle.filter (· ≠ .readOnly)).map Obstacle.fault

/-- Why nothing can be written; in an open transaction only a database that is to be read
refuses. -/
def refusal? (s : Session) : Option StorageFault :=
  s.bar <|> (s.obstacle.filter fun o => s.transaction.isNone || o = .readOnly).map Obstacle.fault

@[simp] theorem view_setView (s : Session) (db : Database) : (s.setView db).view = db := by
  cases h : s.transaction <;> simp [view, setView, h]

@[simp] theorem setView_view (s : Session) : s.setView s.view = s := by
  obtain ⟨_, transaction, _, _, _⟩ := s
  cases transaction <;> rfl

@[simp] theorem refusal?_setView (s : Session) (db : Database) :
    (s.setView db).refusal? = s.refusal? := by
  cases h : s.transaction <;> simp [refusal?, setView, h]

end Session

/-- Something done on a session, which can fail. -/
abbrev Action (ε : Type) := EStateM ε Session

namespace Action

variable {ε δ α β : Type}

/-- Tell failures in other terms. -/
def mapError (f : ε → δ) (action : Action ε α) : Action δ α := fun s =>
  match action s with
  | .ok a s => .ok a s
  | .error e s => .error (f e) s

theorem mapError_bind (f : ε → δ) (action : Action ε α) (next : α → Action ε β) :
    (action >>= next).mapError f = action.mapError f >>= fun a => (next a).mapError f := by
  funext s
  simp only [mapError, Bind.bind, EStateM.bind]
  cases action s <;> rfl

/-- Take over a result. -/
def ofExcept : Except ε α → Action ε α
  | .ok a => pure a
  | .error e => throw e

/-- Tell an event. -/
def tell (event : Event) : Action ε Unit :=
  modify fun s => { s with journal := s.journal ++ [event] }

/-! ### Statements -/

/-- The content that statements see. -/
def contents : Action StorageFault Database := fun s =>
  match s.bar with
  | some fault => .error fault s
  | none => .ok s.view s

/-- The rows of a kind. -/
def table (kind : Kind) : Action StorageFault Table := do
  match (← contents).table? kind with
  | some t => pure t
  | none => throw .unknown

/-- The row of a kind and key. -/
def select (kind : Kind) (key : Key) : Action StorageFault (Option Row) := do
  let t ← table kind
  pure (t.get? key)

/-- Make sure that writing is possible. -/
def claim : Action StorageFault Unit := fun s =>
  match s.refusal? with
  | some fault => .error fault s
  | none => .ok () s

/-- Write the rows of a kind. -/
def change (kind : Kind) (f : Table → Except StorageFault (α × Table)) : Action StorageFault α := do
  let t ← table kind
  claim
  let (a, t) ← ofExcept (f t)
  modify fun s => s.setView (s.view.setTable kind t)
  pure a

/-- Add a row; false if there is one of its key. -/
def insert (kind : Kind) (key : Key) (row : Row) : Action StorageFault Bool :=
  change kind fun t =>
    match t.insert? key row with
    | some t => .ok (true, t)
    | none => .ok (false, t)

/-- Give the row of this key and version another payload; false if there is no such row. -/
def update (kind : Kind) (key : Key) (version : Int) (payload : String) : Action StorageFault Bool :=
  change kind fun t => t.update key version payload

/-- Delete the row of this key and version; false if there is no such row. -/
def delete (kind : Kind) (key : Key) (version : Int) : Action StorageFault Bool :=
  change kind fun t => .ok (t.delete key version)

/-- Mark a kind as prepared; false if it was marked. -/
def mark (kind : Kind) : Action StorageFault Bool := do
  match (← contents).markers with
  | none => throw .unknown
  | some marks =>
      claim
      modify fun s => s.setView { s.view with markers := some (marks.set kind true) }
      pure (!marks.get kind)

/-! ### Transactions -/

/-- Open a transaction that holds the lock for writing from the start. -/
def begin : Action StorageFault Unit := fun s =>
  if s.transaction.isSome then .error .unknown s
  else
    match s.barrier? with
    | some fault => .error fault s
    | none => .ok () { s with transaction := some s.database }

/-- Make the open transaction's content the committed one. -/
def commit : Action StorageFault Unit := fun s =>
  match s.transaction with
  | some db => .ok () { s with database := db, transaction := none }
  | none => .error .unknown s

/-- Give up the open transaction's content. -/
def rollback : Action StorageFault Unit := fun s =>
  match s.transaction with
  | some _ => .ok () { s with transaction := none }
  | none => .error .unknown s

/-- Do all of it in one transaction, or, if it fails, nothing but tell its events. -/
def atomic (refused : StorageFault → ε) (body : Action ε α) : Action ε α := do
  begin.mapError refused
  let a ← tryCatch body fun e => do
    rollback.mapError refused
    throw e
  commit.mapError refused
  pure a

end Action

end AccessStore
