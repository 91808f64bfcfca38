/-
The records of a kind.

Records are kept in the table of their kind.  A row holds the version apart and the
rest as a document without one.  Adding a record gives it the first version whatever
version it carries; writing goes through a handle, which is a key with the version
the record had when it was looked at, and succeeds only if the record still has that
version.  A row that does not hold a record of its own key is never taken for one.
-/
import AccessStore.Database.Program

namespace AccessStore

/-- A record as it was looked at: its key and the version it had. -/
structure Handle where
  key : Key
  version : Version
  deriving DecidableEq, Repr

namespace Records

/-- The document kept for a record. -/
def payload (r : Record) : String := (r.withVersion none).text

/-- The record in a row of a kind. -/
def ofRow (kind : Kind) (row : Row) : Except StoreError Record :=
  match Record.ofText kind row.payload with
  | .error fault => .error (.damaged (.undecodable kind fault))
  | .ok r =>
      if row.version < 1 then .error (.damaged (.badVersion kind row.version))
      else .ok (r.withVersion (some ⟨row.version⟩))

/-- Refuse a record with a blank identity. -/
def identified (r : Record) : Except StoreError Unit :=
  match r.blankIdentity? with
  | some blank => .error (.invalid blank)
  | none => .ok ()

/-- A statement as a program. -/
def statement {α : Type} (action : Action StorageFault α) : Program StoreError α :=
  .once (action.mapError .storage)

/-- All records of a kind, by key. -/
def browse (kind : Kind) : Program StoreError (List Record) := do
  let t ← statement (Action.table kind)
  .ofExcept (t.entries.mapM fun entry => ofRow kind entry.2)

/-- The record of a key. -/
def read (kind : Kind) (key : Key) : Program StoreError (Option Record) := do
  match ← statement (Action.select kind key) with
  | none => pure none
  | some row =>
      let r ← .ofExcept (ofRow kind row)
      if r.key = key then pure (some r)
      else .fail (.damaged (.foreignKey kind key r.key))

/-- The handle of a key; the row's content does not matter. -/
def handle? (kind : Kind) (key : Key) : Program StoreError (Option Handle) := do
  let row ← statement (Action.select kind key)
  pure (row.map fun row => ⟨key, ⟨row.version⟩⟩)

/-- Add a record, at the first version. -/
def add (r : Record) : Program StoreError Version := do
  .ofExcept (identified r)
  if ← statement (Action.insert r.kind r.key ⟨Version.initial.number, payload r⟩) then
    pure Version.initial
  else .fail (.duplicateKey r.kind r.key)

/-- Write a record in the place of the one looked at, at the next version. -/
def write (h : Handle) (r : Record) : Program StoreError Version := do
  .ofExcept (identified r)
  if r.key ≠ h.key then .fail (.keyMismatch r.kind h.key r.key)
  else if ← statement (Action.update r.kind r.key h.version.number (payload r)) then
    pure h.version.next
  else .fail (.concurrentModification r.kind r.key)

/-- Delete the record looked at; false if it is gone. -/
def deleteAt (kind : Kind) (h : Handle) : Program StoreError Bool := do
  if ← statement (Action.delete kind h.key h.version.number) then pure true
  else
    match ← handle? kind h.key with
    | some _ => .fail (.concurrentModification kind h.key)
    | none => pure false

/-- Delete the record of a key; false if there is none. -/
def delete (kind : Kind) (key : Key) : Program StoreError Bool := do
  match ← handle? kind key with
  | some h => deleteAt kind h
  | none => pure false

/-- How many records of a kind there are. -/
def count (kind : Kind) : Program StoreError Nat := do
  let t ← statement (Action.table kind)
  pure t.entries.length

end Records

end AccessStore
