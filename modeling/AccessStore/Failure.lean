/-
What can go wrong, and how it is told.

The storage refuses a statement for one of a few reasons.  Record operations add
reasons of their own, and so do the calls of clients.  Every failure is told in words
together with the chain of failures that brought it about; the wording of the storage
and of the system's files is not ours, so an account says whether it rests on theirs.
-/
import AccessStore.Kind
import AccessStore.Record

namespace AccessStore

/-- How a failure is told. -/
structure Account where
  message : String
  /-- The words of the failures that brought it about, nearest first. -/
  causes : List String := []
  /-- Words of the storage or of the system are among them. -/
  foreign : Bool := false
  deriving DecidableEq, Repr

namespace Account

/-- What stands where the words are not ours. -/
def foreignWords : String := "<system>"

/-- The account of a failure that another one brought about. -/
def because (message : String) (cause : Account) : Account :=
  ⟨message, cause.message :: cause.causes, cause.foreign⟩

end Account

/-- Why the storage refuses. -/
inductive StorageFault
  /-- Another connection holds the lock for writing. -/
  | busy
  /-- A row would break the rule that versions are positive. -/
  | constraint
  /-- The database's path cannot hold a file. -/
  | cannotOpen
  /-- The path leads to something that cannot be read as a file. -/
  | unreadable
  /-- The file holds something else. -/
  | notADatabase
  /-- The address asks for more than it may. -/
  | notPermitted
  /-- The database is only to be read. -/
  | readOnly
  /-- The schema version is negative. -/
  | outOfRange
  /-- The demand makes no sense: a table is missing, a transaction is open or not, or the address
  cannot be read. -/
  | unknown
  deriving DecidableEq, Repr

/-- The refusal in the storage's words. -/
def StorageFault.account (_ : StorageFault) : Account := { message := Account.foreignWords, foreign := true }

/-- What is wrong with a stored row, or with what a hook found. -/
inductive Damage
  /-- The payload is no record of the kind. -/
  | undecodable (kind : Kind) (fault : Json.Fault)
  /-- The version is below one. -/
  | badVersion (kind : Kind) (version : Int)
  /-- The row holds the record of another key. -/
  | foreignKey (kind : Kind) (key held : Key)
  /-- Something else, in words. -/
  | reported (message : String)
  deriving DecidableEq, Repr

/-- The damage in words. -/
def Damage.message : Damage → String
  | undecodable kind fault => "undecodable " ++ kind.table ++ " body: " ++ fault.message
  | badVersion kind version =>
      "invalid version `" ++ Text.decimal version ++ "` in " ++ kind.table ++ ".version"
  | foreignKey kind key held =>
      kind.table ++ " row '" ++ key.text ++ "' holds body for '" ++ held.text ++ "'"
  | reported message => message

/-- The record `key` of a kind, as messages name it. -/
def Kind.quote (kind : Kind) (key : Key) : String := kind.label ++ " '" ++ key.text ++ "'"

/-- Why an operation on the records of a kind fails. -/
inductive StoreError
  | storage (fault : StorageFault)
  /-- An identifying field is blank. -/
  | invalid (blank : BlankIdentity)
  /-- There is a record of this key already. -/
  | duplicateKey (kind : Kind) (key : Key)
  /-- The record was changed or deleted after its version was read. -/
  | concurrentModification (kind : Kind) (key : Key)
  /-- A record was to be written through the handle of another one. -/
  | keyMismatch (kind : Kind) (expected actual : Key)
  | damaged (damage : Damage)
  /-- Preparing the kind failed before, and is not tried again. -/
  | registrationFailed (kind : Kind)
  deriving DecidableEq, Repr

/-- The failure in words. -/
def StoreError.account : StoreError → Account
  | storage fault => fault.account.because fault.account.message
  | invalid blank => .because blank.message { message := blank.message }
  | duplicateKey kind key => { message := kind.quote key ++ " already exists" }
  | concurrentModification kind key => { message := kind.quote key ++ " updated in the meantime" }
  | keyMismatch kind expected actual =>
      { message := kind.quote actual ++ " cannot be written through handle of '" ++ expected.text ++ "'" }
  | damaged damage => { message := "invalid persisted record: " ++ damage.message }
  | registrationFailed kind =>
      { message := kind.label ++ " store failed to initialize in this process" }

/-- Why a client's call fails. -/
inductive CallError
  /-- The store is not open for calls. -/
  | notStarted
  /-- There is no record of this key to update. -/
  | notFound (kind : Kind) (key : Key)
  /-- The record has another version than the caller says. -/
  | concurrentModification (kind : Kind) (key : Key)
  | duplicateKey (kind : Kind) (key : Key)
  | invalid (blank : BlankIdentity)
  | store (error : StoreError)
  /-- The records of a kind could not be prepared. -/
  | seeding (kind : Kind) (error : StoreError)
  deriving DecidableEq, Repr

namespace CallError

/-- What a failed operation on records is to the caller. -/
def ofStore : StoreError → CallError
  | .concurrentModification kind key => concurrentModification kind key
  | .duplicateKey kind key => duplicateKey kind key
  | .invalid blank => invalid blank
  | error => store error

/-- What a refusal of the storage is to the caller. -/
def ofStorage (fault : StorageFault) : CallError := store (.storage fault)

/-- The failure in words. -/
def account : CallError → Account
  | notStarted => { message := "security store is not started" }
  | notFound kind key => { message := kind.label ++ " not found: " ++ key.text }
  | concurrentModification kind key => { message := kind.quote key ++ " updated in the meantime" }
  | duplicateKey kind key => { message := kind.quote key ++ " already exists" }
  | invalid blank => .because blank.message { message := blank.message }
  | store error => error.account.because error.account.message
  | seeding kind error =>
      let message := "failed to initialize " ++ kind.label ++ " store: " ++ error.account.message
      .because message (error.account.because message)

end CallError

/-- A way of not coming to an end: with an error, or by a panic. -/
inductive Stop (ε : Type)
  | failed (error : ε)
  | panicked
  deriving DecidableEq, Repr

/-- The same stop with another error. -/
def Stop.map {ε δ : Type} (f : ε → δ) : Stop ε → Stop δ
  | failed error => failed (f error)
  | panicked => panicked

end AccessStore
