/-
Preparing the records of a kind.

Before a store serves a kind, it registers it.  The first registration of a kind in
the whole life of a database runs a hook, which adds the first records.  The marker
that says the kind has been prepared is set in the same transaction, so either both
the marker and all of the hook's additions are there afterwards, or none of them.

A store registers a kind once.  It remembers how that went: a kind that is ready is
not prepared again, and after a failed attempt the store refuses to try once more.
-/
import AccessStore.Records

namespace AccessStore

/-- How a hook ends once its additions are made. -/
inductive HookEnd
  | succeed
  | refuse (error : StoreError)
  | panic
  deriving DecidableEq, Repr

/-- What is to be done when a kind is first registered. -/
structure Hook where
  /-- An event to tell at the start. -/
  announcement : Option Event := none
  /-- The records to add, up to the first one that cannot be added. -/
  additions : List Record
  ending : HookEnd := .succeed

namespace Hook

/-- Add records one by one. -/
def addAll : List Record → Action StoreError Unit
  | [] => pure ()
  | r :: rest => do
      let _ ← (Records.add r).run
      addAll rest

/-- Tell the announcement. -/
def announce (hook : Hook) : Action (Stop StoreError) Unit :=
  match hook.announcement with
  | some event => Action.tell event
  | none => pure ()

/-- End as the hook does. -/
def finish (hook : Hook) : Action (Stop StoreError) Unit :=
  match hook.ending with
  | .succeed => pure ()
  | .refuse error => throw (.failed error)
  | .panic => throw .panicked

/-- What the hook does. -/
def run (hook : Hook) : Action (Stop StoreError) Unit := do
  hook.announce
  (addAll hook.additions).mapError .failed
  hook.finish

end Hook

/-- How far a store is with preparing a kind. -/
inductive Registration
  | fresh
  | ready
  | failed
  deriving DecidableEq, Repr

/-- Why a kind was not prepared. -/
inductive Unprepared
  /-- The storage refused before the hook could run. -/
  | refused (fault : StorageFault)
  /-- The hook did not succeed. -/
  | byHook (stop : Stop StoreError)
  deriving DecidableEq, Repr

/-- What the caller is told. -/
def Unprepared.stop : Unprepared → Stop StoreError
  | refused fault => .failed (.storage fault)
  | byHook stop => stop

/-- The hook was run. -/
def Unprepared.hookRan : Unprepared → Bool
  | refused _ => false
  | byHook _ => true

/-- How an attempt to register went. -/
structure Attempt where
  /-- Whether it was the first registration in the life of the database. -/
  result : Except (Stop StoreError) Bool
  hookRan : Bool
  registration : Registration
  session : Session

namespace Registration

/-- The event of a first registration. -/
def firstUse (kind : Kind) : Event :=
  .of .debug "store_register" "store" [("status", .text "first_use"), ("kind", .text kind.table)]

/-- Mark a kind and run the hook if it was not marked, in one transaction. -/
def prepare (kind : Kind) (hook : Hook) : Action Unprepared Bool :=
  .atomic .refused do
    let first ← (Action.mark kind).mapError .refused
    if first then
      Action.tell (firstUse kind)
      hook.run.mapError .byHook
    pure first

/-- What a store that has settled the matter answers; a fresh one has yet to prepare the kind. -/
def settled? (kind : Kind) : Registration → Option (Except (Stop StoreError) Bool)
  | fresh => none
  | ready => some (.ok false)
  | failed => some (.error (.failed (.registrationFailed kind)))

/-- What a store remembers of having prepared a kind. -/
def after : Except Unprepared Bool → Registration
  | .ok _ => ready
  | .error _ => failed

/-- Register a kind. -/
def register (registration : Registration) (kind : Kind) (hook : Hook) (s : Session) : Attempt :=
  match registration.settled? kind with
  | some result => ⟨result, false, registration, s⟩
  | none =>
      match prepare kind hook s with
      | .ok first s => ⟨.ok first, first, after (.ok first), s⟩
      | .error e s => ⟨.error e.stop, e.hookRan, after (.error e), s⟩

end Registration

end AccessStore
