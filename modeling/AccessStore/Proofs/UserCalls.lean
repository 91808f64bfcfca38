/-
The calls on users, exactly.

A call on a user works on two tables, and what it answers depends on both rows, on the
version that the caller's user carries and on the order in which all this is looked at.
Three functions, `addUserOutcome`, `updateUserOutcome` and `removeUserOutcome`, say what a
caller may expect, check by check; they are meant to be read.  The one point where the code
is roundabout is the mapping in an update: it is written as an update that may fail to find
it, and is added then.  Either way it ends at the next version, `Deed.putMapping_next`, so no
failure of that step is ever seen.

Nothing is asked of the rows but positive versions.  What they hold does not matter, for no
call on a user reads a payload.
-/
import AccessStore.Proofs.Winners

namespace AccessStore

namespace Database

/-- No version in the database is below one. -/
def IsPositive (db : Database) : Prop := ∀ kind key v, db.version? kind key = some v → 1 ≤ v

/-- The content once a user and the user's mapping have been put at these versions. -/
def putUser (db : Database) (user : User) (v : Int) (roles : NameSet) (m : Int) : Database :=
  (db.put .user [user.id] ⟨v, Records.payload (.user user)⟩).put .mapping
    [user.id, "default"] ⟨m, Records.payload (.mapping { userId := user.id, source := "default", roles })⟩

/-- Dropping a row that is not there changes nothing. -/
theorem drop_of_row?_eq_none {db : Database} {kind : Kind} {key : Key}
    (h : db.row? kind key = none) : db.drop kind key = db := by
  unfold drop
  cases ht : db.table? kind with
  | none => rfl
  | some t =>
      have herase : t.erase key = t := by
        apply SortedMap.ext_get?
        intro k
        rw [SortedMap.get?_erase]
        split
        · rename_i hk
          rw [hk, ← row?_eq ht, h]
        · rfl
      simp only [herase, setTable_self ht]

end Database

/-! ### What is to be expected -/

namespace Call

/-- What comes of adding a user with roles. -/
def addUserOutcome (user : User) (roles : NameSet) (db : Database) : Outcome CallError Answer :=
  if Text.isBlankText user.id then ⟨.error (.invalid ⟨.user, "id"⟩), db⟩
  else if (db.row? .user [user.id]).isSome then ⟨.error (.duplicateKey .user [user.id]), db⟩
  else if (db.row? .mapping [user.id, "default"]).isSome then
    ⟨.error (.duplicateKey .mapping [user.id, "default"]), db⟩
  else ⟨.ok (.version ⟨1⟩), db.putUser user 1 roles 1⟩

/-- What comes of updating a user and the user's roles.  The mapping is put at its next version, which
is one where there is none. -/
def updateUserOutcome (user : User) (roles : NameSet) (db : Database) : Outcome CallError Answer :=
  if Text.isBlankText user.id then ⟨.error (.invalid ⟨.user, "id"⟩), db⟩
  else
    match db.version? .user [user.id] with
    | none => ⟨.error (.notFound .user [user.id]), db⟩
    | some v =>
        if user.version.any (· ≠ ⟨v⟩) then ⟨.error (.concurrentModification .user [user.id]), db⟩
        else
          ⟨.ok (.version ⟨v + 1⟩),
            db.putUser user (v + 1) roles (db.nextVersion .mapping [user.id, "default"])⟩

/-- What comes of removing a user. -/
def removeUserOutcome (id : String) (db : Database) : Outcome CallError Answer :=
  if (db.row? .user [id]).isSome then
    ⟨.ok (.removed true), (db.drop .user [id]).drop .mapping [id, "default"]⟩
  else ⟨.ok (.removed false), db⟩

/-! ### What the programs do -/

theorem blankIdentity?_user (user : User) :
    (Record.user user).blankIdentity? = if Text.isBlankText user.id then some ⟨.user, "id"⟩ else none := by
  by_cases hblank : Text.isBlankText user.id <;>
    simp [Record.blankIdentity?, Record.identity, Record.kind, hblank]

/-- A transaction on free terms has the effect of its body, or none. -/
theorem effect_atomic_free {α β : Type} {p : Program CallError α} (hp : p.Plain) (f : α → β)
    (db : Database) :
    (Program.atomic CallError.ofStorage p >>= fun a => pure (f a)).effect .free db
      = ((p.effect .free db).settle db).andThen fun a db => ⟨.ok (f a), db⟩ := by
  rw [Program.effect_bind, Program.effect_atomic _ hp]
  rfl

section Programs

variable {db : Database} (user : User) (roles : NameSet)

/-- Adding a user is adding two records, the second of which may be refused for a mapping that is there
without its user. -/
theorem effect_addUser (hm : db.IsMigrated) :
    (addUser user roles).program.effect .free db = addUserOutcome user roles db := by
  rw [program, effect_atomic_free (plain_addUserWith user roles), addUserWith, Program.effect_bind,
    effect_records, effect_add_free hm, blankIdentity?_user, addUserOutcome]
  by_cases hblank : Text.isBlankText user.id
  · rw [if_pos hblank, if_pos hblank]
    rfl
  · rw [if_neg hblank, if_neg hblank]
    have hkey : (Record.user user).key = [user.id] := rfl
    by_cases huser : (db.row? .user [user.id]).isSome
    · simp only [Record.kind, hkey, if_pos huser]
      rfl
    · simp only [Record.kind, hkey, if_neg huser]
      -- The second record is added to the content with the first.
      have hnamed : (Record.user user).blankIdentity? = none := by
        rw [blankIdentity?_user, if_neg hblank]
      have hput : (db.put .user [user.id] (addedRow (.user user))).IsMigrated := by
        have hedited : Edited (fun _ _ => True) db (db.put .user [user.id] (addedRow (.user user))) :=
          Edited.same.put trivial hnamed (by decide)
        exact hm.of_edited hedited
      have hrow : (db.put .user [user.id] (addedRow (.user user))).row? .mapping
          [user.id, "default"] = db.row? .mapping [user.id, "default"] :=
        Database.row?_put_ne db _ (by simp)
      have hmappingKey : (Record.mapping (.ofUser user.id roles)).key = [user.id, "default"] :=
        rfl
      rw [Outcome.mapError_ok, Outcome.andThen_ok, Program.effect_bind, effect_records,
        effect_add_free hput, Record.blankIdentity?_ofUser roles hnamed]
      simp only [Record.kind, hmappingKey, hrow]
      by_cases hmapping : (db.row? .mapping [user.id, "default"]).isSome
      · simp only [if_pos hmapping]
        rfl
      · simp only [if_neg hmapping]
        rfl

/-- Updating a user never fails for the mapping. -/
theorem effect_updateUser (hm : db.IsMigrated) (hv : db.IsPositive) :
    (updateUser user roles).program.effect .free db = updateUserOutcome user roles db := by
  have hwritable (r : Record) (hnamed : r.blankIdentity? = none) : Deed.Writable .free db r := by
    refine ⟨hnamed, hm.writeFault?_free _, ?_⟩
    intro n hn
    have hpos := hv _ _ _ hn
    omega
  rw [program, effect_atomic_free (plain_updateUserWith user roles), updateUserOutcome]
  by_cases hblank : Text.isBlankText user.id
  · have hinvalid : (updateRecord (.user user)).effect .free db
        = ⟨.error (.invalid ⟨.user, "id"⟩), db⟩ := by
      rw [effect_updateRecord, blankIdentity?_user, if_pos hblank]
    rw [if_pos hblank, updateUserWith, Program.effect_bind, hinvalid]
    rfl
  · have hnamed : (Record.user user).blankIdentity? = none := by
      rw [blankIdentity?_user, if_neg hblank]
    have hkey : (Record.user user).key = [user.id] := rfl
    rw [if_neg hblank]
    cases hversion : db.version? .user [user.id] with
    | none =>
        have hrow : db.row? .user [user.id] = none := by simpa [Database.version?] using hversion
        have hmissing : (updateRecord (.user user)).effect .free db
            = ⟨.error (.notFound .user [user.id]), db⟩ := by
          rw [effect_updateRecord, hnamed, hm.readFault?_free]
          simp only [Record.kind, hkey, hrow]
        rw [updateUserWith, Program.effect_bind, hmissing]
        rfl
    | some v =>
        by_cases hcarried : user.version.any (· ≠ ⟨v⟩)
        · have houtdated : (updateRecord (.user user)).effect .free db
              = ⟨.error (.concurrentModification .user [user.id]), db⟩ := by
            obtain ⟨payload, hrow⟩ := Database.row?_of_version? hversion
            have hout : isOutdated (.user user) ⟨v⟩ = true := hcarried
            rw [effect_updateRecord, hnamed, hm.readFault?_free]
            simp only [Record.kind, hkey, hrow, if_pos hout]
          simp only [if_pos hcarried]
          rw [updateUserWith, Program.effect_bind, houtdated]
          rfl
        · have hcurrent : ∀ carried, user.version = some carried → carried.number = v := by
            intro carried hc
            rw [hc] at hcarried
            simpa using congrArg Version.number (by simpa using hcarried)
          have hmapping := Record.blankIdentity?_ofUser roles hnamed
          simp only [if_neg hcarried]
          rw [Deed.updateUserWith_next (hwritable _ hnamed) (hwritable _ hmapping) hversion hcurrent]
          rfl

/-- Removing a user removes the mapping with the user, and nothing if there is no user. -/
theorem effect_removeUser (hm : db.IsMigrated) (id : String) :
    (removeUser id).program.effect .free db = removeUserOutcome id db := by
  rw [program, effect_atomic_free (plain_removeUserWith id), removeUserWith, Program.effect_bind,
    effect_delete_free hm, removeUserOutcome]
  by_cases huser : (db.row? .user [id]).isSome
  · rw [if_pos huser, if_pos huser]
    have hdropped : (db.drop .user [id]).IsMigrated := by
      have hedited : Edited (fun _ _ => True) db (db.drop .user [id]) := Edited.same.drop trivial
      exact hm.of_edited hedited
    obtain ⟨existed, hmapping⟩ : ∃ existed,
        (records (Records.delete .mapping [id, Mapping.defaultSource])).effect .free (db.drop .user [id])
          = ⟨.ok existed, (db.drop .user [id]).drop .mapping [id, "default"]⟩ := by
      rw [effect_delete_free hdropped]
      split
      · exact ⟨true, rfl⟩
      · rename_i hnone
        have hrow : (db.drop .user [id]).row? .mapping [id, Mapping.defaultSource] = none := by
          simpa using hnone
        have hsame : (db.drop .user [id]).drop .mapping [id, "default"] = db.drop .user [id] :=
          Database.drop_of_row?_eq_none hrow
        rw [hsame]
        exact ⟨false, rfl⟩
    simp only [Outcome.andThen_ok, if_true]
    rw [Program.effect_bind, hmapping]
    rfl
  · rw [if_neg huser, if_neg huser]
    rfl

end Programs

end Call

/-! ### What is there afterwards -/

namespace Database

variable {db : Database} {user : User} {roles : NameSet} {v m : Int}

/-- Who gets the user gets what was put, and so does who gets the mapping. -/
theorem shows_putUser (hm : db.IsMigrated) (hnamed : (Record.user user).blankIdentity? = none)
    (hv : 1 ≤ v) (hmv : 1 ≤ m) :
    (db.putUser user v roles m).Shows (.user user) ⟨v⟩ ∧
      (db.putUser user v roles m).ShowsRoles user.id roles ⟨m⟩ := by
  have huser : Edited (fun _ _ => True) db
      (db.put .user [user.id] ⟨v, Records.payload (.user user)⟩) :=
    Edited.same.put trivial hnamed hv
  have hboth : Edited (fun _ _ => True) db (db.putUser user v roles m) :=
    huser.put (r := .mapping (.ofUser user.id roles)) trivial
      (Record.blankIdentity?_ofUser roles hnamed) hmv
  obtain ⟨t, ht⟩ := Option.isSome_iff_exists.mp (hm.tables .user)
  obtain ⟨t', ht'⟩ := Option.isSome_iff_exists.mp ((hm.of_edited huser).tables .mapping)
  have hmigrated := hm.of_edited hboth
  refine ⟨shows_of_row? hmigrated hv ?_, showsRoles_of_row? hmigrated hmv ?_⟩
  · rw [putUser, row?_put_ne _ _ (by simp [Record.kind])]
    exact row?_put_self ht _ _
  · exact row?_put_self ht' _ _

theorem IsPositive.one_le_nextVersion (h : db.IsPositive) (kind : Kind) (key : Key) :
    1 ≤ db.nextVersion kind key := by
  unfold nextVersion
  cases hn : db.version? kind key with
  | none => decide
  | some n =>
      have hpos := h kind key n hn
      show 1 ≤ n + 1
      omega

end Database

namespace Call

variable {db db' : Database} {user : User} {roles : NameSet} {v : Version}

/-- A user who was added and the mapping are both at the first version. -/
theorem shows_of_addUserOutcome (hm : db.IsMigrated)
    (hok : addUserOutcome user roles db = ⟨.ok (.version v), db'⟩) :
    v = ⟨1⟩ ∧ db'.Shows (.user user) ⟨1⟩ ∧ db'.ShowsRoles user.id roles ⟨1⟩ := by
  unfold addUserOutcome at hok
  split at hok
  · cases hok
  · rename_i hblank
    split at hok
    · cases hok
    · split at hok
      · cases hok
      · cases hok
        refine ⟨rfl, Database.shows_putUser hm ?_ (by decide) (by decide)⟩
        rw [blankIdentity?_user, if_neg hblank]

/-- A user who was updated is at the version after the stored one, and the mapping at its next one. -/
theorem shows_of_updateUserOutcome (hm : db.IsMigrated) (hv : db.IsPositive)
    (hok : updateUserOutcome user roles db = ⟨.ok (.version v), db'⟩) :
    db.version? .user [user.id] = some (v.number - 1) ∧ db'.Shows (.user user) v ∧
      db'.ShowsRoles user.id roles ⟨db.nextVersion .mapping [user.id, "default"]⟩ := by
  unfold updateUserOutcome at hok
  split at hok
  · cases hok
  · rename_i hblank
    cases hn : db.version? .user [user.id] with
    | none =>
        rw [hn] at hok
        cases hok
    | some n =>
        simp only [hn] at hok
        split at hok
        · cases hok
        · cases hok
          have hpos := hv _ _ _ hn
          have hnamed : (Record.user user).blankIdentity? = none := by
            rw [blankIdentity?_user, if_neg hblank]
          refine ⟨by simp, Database.shows_putUser hm hnamed (show 1 ≤ n + 1 by omega) ?_⟩
          exact hv.one_le_nextVersion .mapping [user.id, "default"]

/-- No update of a user is refused for the mapping. -/
theorem error_of_updateUserOutcome {e : CallError}
    (he : (updateUserOutcome user roles db).result = .error e) :
    e = .invalid ⟨.user, "id"⟩ ∨ e = .notFound .user [user.id] ∨
      e = .concurrentModification .user [user.id] := by
  unfold updateUserOutcome at he
  split at he
  · cases he
    exact .inl rfl
  · split at he
    · cases he
      exact .inr (.inl rfl)
    · split at he
      · cases he
        exact .inr (.inr rfl)
      · cases he

end Call

/-! ### The result -/

namespace Service

variable {h : Host} {link : Option Link} {db : Database}

/-- The store answers the call like this, and its database holds this afterwards. -/
def Gives (h : Host) (link : Option Link) (c : Call) (o : Outcome CallError Answer) : Prop :=
  ∃ h', call c h = ended o.result h' ∧ content h' link = o.database

/-- **What the calls on users answer and leave.**  Of a started store whose connection nothing is in the
way of, each call does what its outcome says.  A user who is added or updated is read back at the
version that was answered and the mapping at the one that follows its own; what an update can fail with
is never about the mapping.  Where a mapping is in the way, its key is told as the id and the source with a
slash between them. -/
theorem user_calls (hopen : h.service.gate.isOpen) (hc : Connects h link .free db) (hm : db.IsMigrated)
    (hv : db.IsPositive) (user : User) (roles : NameSet) (id : String) :
    Gives h link (.addUser user roles) (Call.addUserOutcome user roles db) ∧
    Gives h link (.updateUser user roles) (Call.updateUserOutcome user roles db) ∧
    Gives h link (.removeUser id) (Call.removeUserOutcome id db) ∧
    (∀ v db', Call.addUserOutcome user roles db = ⟨.ok (.version v), db'⟩ →
      v = ⟨1⟩ ∧ db'.Shows (.user user) ⟨1⟩ ∧ db'.ShowsRoles user.id roles ⟨1⟩) ∧
    (∀ v db', Call.updateUserOutcome user roles db = ⟨.ok (.version v), db'⟩ →
      db.version? .user [user.id] = some (v.number - 1) ∧ db'.Shows (.user user) v ∧
        db'.ShowsRoles user.id roles ⟨db.nextVersion .mapping [user.id, "default"]⟩) ∧
    (∀ e, (Call.updateUserOutcome user roles db).result = .error e →
      e = .invalid ⟨.user, "id"⟩ ∨ e = .notFound .user [user.id] ∨
        e = .concurrentModification .user [user.id]) ∧
    Key.text [user.id, "default"] = user.id ++ "/default" := by
  have hgives {c : Call} {o : Outcome CallError Answer} (ho : c.program.effect .free db = o) :
      Gives h link c o := by
    obtain ⟨h', hcall, hcontent⟩ := call_of_connects c hc hm.ne_blank hopen
    rw [ho] at hcall hcontent
    exact ⟨h', hcall, hcontent⟩
  refine ⟨hgives (Call.effect_addUser user roles hm), hgives (Call.effect_updateUser user roles hm hv),
    hgives (Call.effect_removeUser hm id), ?_, ?_, ?_, ?_⟩
  · intro v db' hok
    exact Call.shows_of_addUserOutcome hm hok
  · intro v db' hok
    exact Call.shows_of_updateUserOutcome hm hv hok
  · intro e he
    exact Call.error_of_updateUserOutcome he
  · show user.id ++ "/" ++ "default" = user.id ++ "/default"
    rw [String.append_assoc]
    rfl

/-- A database with a user who has no mapping and a mapping that has no user. -/
def unpaired : Database :=
  (Database.migrated.put .user ["ada"] ⟨3, Records.payload (.user { id := "ada" })⟩).put .mapping
    ["bob", "default"] ⟨5, Records.payload (.mapping { userId := "bob", source := "default" })⟩

/-- The user who has no mapping is given one by an update; for the other one a user cannot be added. -/
theorem user_calls_of_unpaired :
    (∃ h', call (.updateUser { id := "ada" } (.ofList ["dev"])) (Database.startedOn unpaired)
        = .ok (.version ⟨4⟩) h' ∧
      (content h' none).ShowsRoles "ada" (.ofList ["dev"]) ⟨1⟩) ∧
    ∃ h', call (.addUser { id := "bob" } .empty) (Database.startedOn unpaired)
        = .error (.duplicateKey .mapping ["bob", "default"]) h' := by
  have hm : unpaired.IsMigrated := by
    refine ⟨rfl, ?_, rfl⟩
    intro kind
    cases kind <;> rfl
  have hv : unpaired.IsPositive := by
    intro kind key v hversion
    rw [unpaired, Database.version?_put rfl, Database.version?_put rfl] at hversion
    split at hversion
    · cases hversion
      decide
    · split at hversion
      · cases hversion
        decide
      · cases kind <;> cases hversion
  have hc : Connects (Database.startedOn unpaired) none .free unpaired := connects_memory rfl
  obtain ⟨-, ⟨h', hcall, hcontent⟩, -, -, hupdated, -⟩ :=
    user_calls rfl hc hm hv { id := "ada" } (.ofList ["dev"]) "ada"
  obtain ⟨⟨h'', hrefused, -⟩, -⟩ := user_calls rfl hc hm hv { id := "bob" } .empty "bob"
  refine ⟨⟨h', hcall, ?_⟩, h'', hrefused⟩
  rw [hcontent]
  exact (hupdated ⟨4⟩ _ rfl).2.2

end Service

end AccessStore
