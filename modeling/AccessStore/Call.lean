/-
The calls of clients.

Clients browse and get records of every kind, and add, update and remove them.  An
update must find the record, and if the given record carries a version it must be the
stored one.  Roles, privileges and mappings are updated and removed in two steps, a
look at the version and a write that depends on it, so that another client may come in
between and win.

A user comes with a set of roles, which are kept in the user's mapping under the
default source.  The calls on users change both in one transaction.
-/
import AccessStore.Records

namespace AccessStore

/-- A call on an open store. -/
inductive Call
  | browse (kind : Kind)
  | get (kind : Kind) (key : Key)
  | addUser (user : User) (roles : NameSet)
  | updateUser (user : User) (roles : NameSet)
  | removeUser (id : String)
  /-- Add a record that is no user. -/
  | add (record : Record) (plain : record.kind ≠ .user)
  /-- Update a record that is no user. -/
  | update (record : Record) (plain : record.kind ≠ .user)
  /-- Remove a record that is no user. -/
  | remove (kind : Kind) (key : Key) (plain : kind ≠ .user)

/-- What a call answers. -/
inductive Answer
  | records (list : List Record)
  | record (found : Option Record)
  | version (version : Version)
  /-- Whether there was a record to remove. -/
  | removed (existed : Bool)
  deriving DecidableEq

/-- The name of a kind in events. -/
def Kind.noun : Kind → String
  | user => "user"
  | role => "role"
  | privilege => "privilege"
  | mapping => "mapping"

/-- The names of the parts of a key in events. -/
def Kind.keyDetails : Kind → List String
  | user => ["user_id"]
  | role => ["role_id"]
  | privilege => ["privilege_id"]
  | mapping => ["user_id", "source"]

namespace Call

/-- The event of a call on the records of a kind, or on the record of one key. -/
def eventOf (verb : String) (kind : Kind) (key : Key) : Event :=
  .of .trace (kind.noun ++ "_" ++ verb) "security_config"
    (kind.keyDetails.zip (key.map .text))

/-- The event of a call. -/
def event : Call → Event
  | browse kind => eventOf "browse" kind []
  | get kind key => eventOf "get" kind key
  | addUser user _ => eventOf "add" .user [user.id]
  | updateUser user _ => eventOf "update" .user [user.id]
  | removeUser id => eventOf "remove" .user [id]
  | add r _ => eventOf "add" r.kind r.key
  | update r _ => eventOf "update" r.kind r.key
  | remove kind key _ => eventOf "remove" kind key

/-- The event of giving a user that has no mapping one. -/
def mappingCreated (userId : String) : Event :=
  .of .trace "user_update" "security_config"
    [("status", .text "mapping_created"), ("user_id", .text userId)]

/-- An operation on records, told as part of a call. -/
def records {α : Type} (p : Program StoreError α) : Program CallError α :=
  p.mapError CallError.ofStore

/-- Write a record in the place of the stored one, if there is one and the record carries no
version or the stored one. -/
def updateRecord (r : Record) : Program CallError Version := do
  .ofExcept ((Records.identified r).mapError CallError.ofStore)
  match ← records (Records.handle? r.kind r.key) with
  | none => .fail (.notFound r.kind r.key)
  | some h =>
      if r.version.any (· ≠ h.version) then .fail (.concurrentModification r.kind r.key)
      else records (Records.write h r)

/-- Write the mapping of a user, or add it if there is none. -/
def putMapping (m : Mapping) : Action CallError Unit :=
  tryCatch
    (do let _ ← (updateRecord (.mapping m)).run)
    fun
      | .notFound _ _ => do
          Action.tell (mappingCreated m.userId)
          let _ ← (records (Records.add (.mapping m))).run
      | e => throw e

/-- Add a user and the user's mapping. -/
def addUserWith (user : User) (roles : NameSet) : Program CallError Version := do
  let version ← records (Records.add (.user user))
  let _ ← records (Records.add (.mapping (.ofUser user.id roles)))
  pure version

/-- Update a user and put the user's mapping. -/
def updateUserWith (user : User) (roles : NameSet) : Program CallError Version := do
  let version ← updateRecord (.user user)
  .once (putMapping (.ofUser user.id roles))
  pure version

/-- Remove a user, and the user's mapping with the user. -/
def removeUserWith (id : String) : Program CallError Bool := do
  let removed ← records (Records.delete .user [id])
  if removed then
    let _ ← records (Records.delete .mapping [id, Mapping.defaultSource])
  pure removed

/-- What a call does. -/
def program : Call → Program CallError Answer
  | browse kind => do
      let list ← records (Records.browse kind)
      pure (.records list)
  | get kind key => do
      let found ← records (Records.read kind key)
      pure (.record found)
  | addUser user roles => do
      let version ← .atomic CallError.ofStorage (addUserWith user roles)
      pure (.version version)
  | updateUser user roles => do
      let version ← .atomic CallError.ofStorage (updateUserWith user roles)
      pure (.version version)
  | removeUser id => do
      let existed ← .atomic CallError.ofStorage (removeUserWith id)
      pure (.removed existed)
  | add r _ => do
      let version ← records (Records.add r)
      pure (.version version)
  | update r _ => do
      let version ← updateRecord r
      pure (.version version)
  | remove kind key _ => do
      let existed ← records (Records.delete kind key)
      pure (.removed existed)

/-- Count the records of every kind. -/
def countAll : Program CallError (PerKind Nat) := do
  let users ← records (Records.count .user)
  let roles ← records (Records.count .role)
  let privileges ← records (Records.count .privilege)
  let mappings ← records (Records.count .mapping)
  pure ⟨users, roles, privileges, mappings⟩

end Call

end AccessStore
