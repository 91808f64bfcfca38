/-
Users.

A user's profile is of no concern to the store: only the id and the version decide
anything.  The password is a hashed credential and is left out where there is none.
-/
import AccessStore.Json.Schema
import AccessStore.Version

namespace AccessStore

open Json

/-- The state of a user's account. -/
inductive UserStatus
  | active
  | disabled
  | locked
  /-- The password must be changed at the next login. -/
  | changePassword
  deriving DecidableEq, Repr

namespace UserStatus

/-- The states and their names in documents. -/
def choices : List (String × UserStatus) :=
  [("active", active), ("disabled", disabled), ("locked", locked), ("changepassword", changePassword)]

/-- A state's name in documents. -/
def text : UserStatus → String
  | active => "active"
  | disabled => "disabled"
  | locked => "locked"
  | changePassword => "changepassword"

/-- The state written by a node. -/
def decode : Decoder UserStatus := Decoder.choice choices

/-- The state in documents. -/
def value (status : UserStatus) : Value := .text status.text

end UserStatus

/-- A user. -/
structure User where
  id : String
  version : Option Version := none
  firstName : String := ""
  lastName : String := ""
  email : String := ""
  status : UserStatus := .active
  /-- A hashed credential, never looked into. -/
  password : Option String := none
  deriving DecidableEq, Repr

namespace User

/-- An active user without a profile. -/
def new (id : String) : User := { id }

/-- How users are written. -/
def schema : Schema User where
  start := { id := "" }
  fields :=
    [.need "id" Decoder.text fun v r => { r with id := v },
     .may "version" (.optional Version.decode) fun v r => { r with version := v },
     .may "firstName" Decoder.text fun v r => { r with firstName := v },
     .may "lastName" Decoder.text fun v r => { r with lastName := v },
     .may "email" Decoder.text fun v r => { r with email := v },
     .may "status" UserStatus.decode fun v r => { r with status := v },
     .may "password" (.optional Decoder.text) fun v r => { r with password := v }]

/-- The user written by a node. -/
def decode : Decoder User := schema.decode

/-- The members of a user's document, in order. -/
def members (u : User) : List (String × Value) :=
  [("id", .text u.id)]
    ++ (u.version.map fun v => ("version", v.value)).toList
    ++ [("firstName", .text u.firstName), ("lastName", .text u.lastName), ("email", .text u.email),
        ("status", u.status.value)]
    ++ (u.password.map fun p => ("password", .text p)).toList

/-- The user as a document. -/
def value (u : User) : Value := .object u.members

end User

end AccessStore
