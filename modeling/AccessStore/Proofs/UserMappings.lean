/-
Users and their mappings.

The mapping of a user under the default source belongs to the user: it is written with the
user and goes with the user.  Two tables are involved, and a call that fails between the
one and the other could leave them out of step, so what has to be known is what a call does
to both rows of one id at a time.  It leaves both as they are, writes both or removes both:
`Call.paired_program`.  That is so whatever the rows hold and however the call ends, with
one exception, calls that work on mappings of the default source themselves.

From there on it is a matter of going through a run call by call.  A run is any sequence of
calls that stores answer, each store in whatever state and each on whatever terms.
-/
import AccessStore.Proofs.Lossless
import AccessStore.Proofs.WellFormed

namespace AccessStore

/-! ### Both rows of an id -/

/-- What becomes of a user and the user's mapping: both stay, both are written with these roles, or
both are removed. -/
inductive Paired (db db' : Database) (id : String) : Option NameSet → Prop
  | kept (huser : db'.row? .user [id] = db.row? .user [id])
      (hmapping : db'.row? .mapping [id, "default"]
        = db.row? .mapping [id, "default"]) : Paired db db' id none
  | written {roles : NameSet} {v : Int} (huser : (db'.row? .user [id]).isSome) (hv : 1 ≤ v)
      (hmapping : db'.row? .mapping [id, "default"]
        = some ⟨v, Records.payload (.mapping { userId := id, source := "default", roles })⟩) :
      Paired db db' id (some roles)
  | removed (huser : db'.row? .user [id] = none)
      (hmapping : db'.row? .mapping [id, "default"] = none) : Paired db db' id none

section Pairs

variable {w : Terms} {db db₁ db' : Database} {id : String} {roles : NameSet} {user : User}

/-- The user was put first and then the mapping. -/
theorem Paired.of_puts {row : Row} {v : Int} {t t₁ : Table} (ht : db.table? .user = some t)
    (hdb₁ : db₁ = db.put .user [id] row) (ht₁ : db₁.table? .mapping = some t₁) (hv : 1 ≤ v)
    (hdb' : db' = db₁.put .mapping [id, "default"]
      ⟨v, Records.payload (.mapping { userId := id, source := "default", roles })⟩) :
    Paired db db' id (some roles) := by
  have huser : db'.row? .user [id] = some row := by
    rw [hdb', Database.row?_put_ne _ _ (by simp), hdb₁, Database.row?_put_self ht]
  refine .written (by rw [huser]; rfl) hv ?_
  rw [hdb', Database.row?_put_self ht₁]

/-- An update makes a positive version. -/
theorem one_le_of_updateRecord {r : Record} {v : Version}
    (hok : (Call.updateRecord r).effect w db = ⟨.ok v, db'⟩) : 1 ≤ v.number := by
  obtain ⟨-, row, hrow, -, rfl, -⟩ := Call.updateRecord_ok hok
  rw [Call.effect_updateRecord, hrow] at hok
  by_cases hpos : row.version + 1 ≤ 0
  · -- A version that is not positive is refused, if nothing else was wrong before.
    simp only [if_pos hpos] at hok
    repeat' split at hok
    all_goals cases hok
  · show 1 ≤ row.version + 1
    omega

/-- Putting a mapping puts it at some positive version. -/
theorem putMapping_ok {m : Mapping} (hok : (Call.putMapping m).effect w db = ⟨.ok (), db'⟩) :
    ∃ v t, 1 ≤ v ∧ db.table? .mapping = some t ∧
      db' = db.put .mapping [m.userId, m.source] ⟨v, Records.payload (.mapping m)⟩ := by
  rcases Call.putMapping_cases hok with ⟨v, hupdate⟩ | ⟨v, hadd⟩
  · obtain ⟨⟨t, ht⟩, row, -, -, rfl, hdb'⟩ := Call.updateRecord_ok hupdate
    exact ⟨row.version + 1, t, one_le_of_updateRecord hupdate, ht, hdb'⟩
  · obtain ⟨-, ⟨t, ht⟩, -, hdb'⟩ := Records.add_ok hadd
    exact ⟨Version.initial.number, t, by decide, ht, hdb'⟩

theorem paired_addUserWith {v : Version}
    (hok : (Call.addUserWith user roles).effect w db = ⟨.ok v, db'⟩) :
    Paired db db' user.id (some roles) := by
  obtain ⟨db₁, _, huser, hmapping⟩ := Call.addUserWith_ok hok
  obtain ⟨-, ⟨t, ht⟩, -, hdb₁⟩ := Records.add_ok huser
  obtain ⟨-, ⟨t₁, ht₁⟩, -, hdb'⟩ := Records.add_ok hmapping
  exact .of_puts ht hdb₁ ht₁ (by decide) hdb'

theorem paired_updateUserWith {v : Version}
    (hok : (Call.updateUserWith user roles).effect w db = ⟨.ok v, db'⟩) :
    Paired db db' user.id (some roles) := by
  obtain ⟨db₁, huser, hmapping⟩ := Call.updateUserWith_ok hok
  obtain ⟨⟨t, ht⟩, row, -, -, -, hdb₁⟩ := Call.updateRecord_ok huser
  obtain ⟨v', t₁, hv', ht₁, hdb'⟩ := putMapping_ok hmapping
  exact .of_puts ht hdb₁ ht₁ hv' hdb'

/-- Deleting a record leaves none, whether there was one or not. -/
theorem row?_of_delete {kind : Kind} {key : Key} {existed : Bool}
    (hok : (Records.delete kind key).effect w db = ⟨.ok existed, db'⟩) :
    db'.row? kind key = none := by
  rcases Records.delete_ok hok with ⟨-, ⟨t, ht⟩, -, rfl⟩ | ⟨-, hrow, rfl⟩
  · rw [Database.row?_drop_self ht]
  · exact hrow

theorem paired_removeUserWith {existed : Bool}
    (hok : (Call.removeUserWith id).effect w db = ⟨.ok existed, db'⟩) : Paired db db' id none := by
  rcases Call.removeUserWith_cases hok with ⟨-, huser⟩ | ⟨-, db₁, huser, hmapping⟩
  · rcases Records.delete_ok huser with ⟨hfalse, -⟩ | ⟨-, -, rfl⟩
    · cases hfalse
    · exact .kept rfl rfl
  · -- Deleting the mapping does not bring the user back.
    have hframe : db'.row? .user [id] = db₁.row? .user [id] := by
      rcases Records.delete_ok hmapping with ⟨-, -, -, rfl⟩ | ⟨-, -, rfl⟩
      · exact Database.row?_drop_ne _ (by simp)
      · rfl
    exact .removed (hframe.trans (row?_of_delete huser)) (row?_of_delete hmapping)

end Pairs

/-! ### Calls -/

namespace Call

variable {w : Terms} {db db' : Database} {c : Call} {id : String}

/-- The call works on a mapping under the default source itself, and not on the user. -/
def IsDirect : Call → Prop
  | add r _ | update r _ => ∃ m, r = .mapping m ∧ m.source = "default"
  | remove kind key _ => ∃ id, kind = .mapping ∧ key = [id, "default"]
  | _ => False

/-- The id of the user that the call is to change. -/
def userId? : Call → Option String
  | addUser user _ | updateUser user _ => some user.id
  | removeUser id => some id
  | _ => none

/-- The roles that the call is to give to the user of this id. -/
def roles? (id : String) : Call → Option NameSet
  | addUser user roles | updateUser user roles => if user.id = id then some roles else none
  | _ => none

theorem roles?_of_other (h : c.userId? ≠ some id) : c.roles? id = none := by
  cases c <;> simp_all [userId?, roles?]

/-- A call that is to change another user, or none, has nothing to do with the rows of this one. -/
theorem not_changes_of_other (hdirect : ¬ c.IsDirect) (h : c.userId? ≠ some id) :
    ¬ c.changes .user [id] ∧ ¬ c.changes .mapping [id, "default"] := by
  -- A record that is no user has the key of the mapping only if it is that mapping.
  have hrecord (r : Record) (plain : r.kind ≠ .user)
      (hdirect : ¬ ∃ m, r = .mapping m ∧ m.source = "default") :
      (.user, [id]) ≠ (r.kind, r.key) ∧ (.mapping, [id, "default"]) ≠ (r.kind, r.key) := by
    refine ⟨fun heq => plain (Prod.mk.inj heq).1.symm, fun heq => ?_⟩
    cases r with
    | mapping m =>
        have hkey : [id, "default"] = [m.userId, m.source] := (Prod.mk.inj heq).2
        simp only [List.cons.injEq, and_true] at hkey
        exact hdirect ⟨m, rfl, hkey.2.symm⟩
    | _ => cases (Prod.mk.inj heq).1
  cases c with
  | add r plain => exact hrecord r plain hdirect
  | update r plain => exact hrecord r plain hdirect
  | remove kind key plain =>
      refine ⟨fun heq => plain (Prod.mk.inj heq).1.symm, fun heq => hdirect ⟨id, ?_⟩⟩
      exact ⟨(Prod.mk.inj heq).1.symm, (Prod.mk.inj heq).2.symm⟩
  | browse kind => exact ⟨fun h => h, fun h => h⟩
  | get kind key => exact ⟨fun h => h, fun h => h⟩
  | addUser user roles =>
      have hne : id ≠ user.id := fun heq => h (by rw [heq]; rfl)
      simp [changes, hne]
  | updateUser user roles =>
      have hne : id ≠ user.id := fun heq => h (by rw [heq]; rfl)
      simp [changes, hne]
  | removeUser other =>
      have hne : id ≠ other := fun heq => h (by rw [heq]; rfl)
      simp [changes, hne]

/-- A call on a user that succeeds leaves the user and the mapping in step. -/
theorem paired_of_ok {answer : Answer} (hid : c.userId? = some id)
    (hok : c.program.effect w db = ⟨.ok answer, db'⟩) : Paired db db' id (c.roles? id) := by
  cases c with
  | addUser user roles =>
      obtain rfl : user.id = id := Option.some.inj hid
      obtain ⟨v, hv, -⟩ := Program.bind_pure_ok.mp hok
      simp only [roles?, if_true]
      exact paired_addUserWith (Program.atomic_ok (plain_addUserWith user roles) hv)
  | updateUser user roles =>
      obtain rfl : user.id = id := Option.some.inj hid
      obtain ⟨v, hv, -⟩ := Program.bind_pure_ok.mp hok
      simp only [roles?, if_true]
      exact paired_updateUserWith (Program.atomic_ok (plain_updateUserWith user roles) hv)
  | removeUser other =>
      obtain rfl : other = id := Option.some.inj hid
      obtain ⟨existed, hexisted, -⟩ := Program.bind_pure_ok.mp hok
      exact paired_removeUserWith (Program.atomic_ok (plain_removeUserWith other) hexisted)
  | _ => cases hid

/-- The roles that a call has given to the user of this id; none if it failed. -/
def rolesGiven? (c : Call) (result : Except CallError Answer) (id : String) : Option NameSet :=
  match result with
  | .ok _ => c.roles? id
  | .error _ => none

/-- **A call leaves both rows of an id, writes both or removes both.** -/
theorem paired_program (hdirect : ¬ c.IsDirect) (w : Terms) (db : Database) (id : String) :
    Paired db (c.program.effect w db).database id
      (c.rolesGiven? (c.program.effect w db).result id) := by
  by_cases hid : c.userId? = some id
  · rcases ho : c.program.effect w db with ⟨result, db'⟩
    cases result with
    | ok answer => exact paired_of_ok hid ho
    | error e =>
        obtain rfl : db' = db := (harmless_program c w db).database_eq ho
        exact .kept rfl rfl
  · obtain ⟨huser, hmapping⟩ := not_changes_of_other hdirect hid
    have hedited := edited_program c w db
    have hroles : c.rolesGiven? (c.program.effect w db).result id = none := by
      unfold rolesGiven?
      split
      · exact roles?_of_other hid
      · rfl
    rw [hroles]
    exact .kept (hedited.row?_eq huser) (hedited.row?_eq hmapping)

end Call

/-! ### Runs -/

/-- A store that could not connect cannot after it has told of a call, either. -/
theorem Service.refused_announced {h h₁ : Host} {fault : StorageFault}
    (hc : connect h = .error fault h₁) (c : Call) :
    ∃ h₂, connect (announced h c) = .error fault h₂ := by
  unfold connect at hc ⊢
  simp only [announced]
  cases hb : h.service.backing with
  | memory db => simp [hb] at hc
  | file path =>
      cases hd : h.disk.connect path with
      | ok linked => simp [hb, hd] at hc
      | error fault' =>
          simp only [hb, hd, EStateM.Result.error.injEq] at hc ⊢
          exact ⟨_, hc.1, rfl⟩

/-- A call that was made and what was answered. -/
structure Made where
  call : Call
  result : Except CallError Answer

/-- The roles that the call has given to the user of this id. -/
def Made.roles? (m : Made) (id : String) : Option NameSet := m.call.rolesGiven? m.result id

/-- From one content to the other these calls were made, the latest first in the list.  Each was made
of some store that connects, on whatever terms, to a database of the content there was, or of one that
could not connect to it. -/
inductive Database.Called (db : Database) : List Made → Database → Prop
  | none : Called db [] db
  | refused {made : List Made} {db' : Database} {h h₁ h' : Host} {fault : StorageFault} {c : Call}
      {result : Except CallError Answer} (hrun : Called db made db')
      (hc : Service.connect h = .error fault h₁) (hcall : Service.call c h = ended result h') :
      Called db (⟨c, result⟩ :: made) db'
  | next {made : List Made} {db' : Database} {h h' : Host} {link : Option Link} {w : Terms} {c : Call}
      {result : Except CallError Answer} (hrun : Called db made db')
      (hc : Service.Connects h link w db') (hcall : Service.call c h = ended result h') :
      Called db (⟨c, result⟩ :: made) (Service.content h' link)

namespace Database

variable {db db' : Database} {made : List Made}

/-- Exactly the users have a mapping under the default source. -/
def InStep (db : Database) : Prop :=
  ∀ id, (db.row? .user [id]).isSome ↔ (db.row? .mapping [id, "default"]).isSome

/-- Users and mappings are in step, and a user who is there and was added or updated by one of these
calls has the roles given by the latest of them. -/
structure Mapped (made : List Made) (db : Database) : Prop where
  inStep : db.InStep
  given : ∀ id roles, made.findSome? (·.roles? id) = some roles → (db.row? .user [id]).isSome →
    ∃ v, 1 ≤ v ∧ db.row? .mapping [id, "default"]
      = some ⟨v, Records.payload (.mapping { userId := id, source := "default", roles })⟩

theorem Mapped.step {m : Made} (h : Mapped made db) (hp : ∀ id, Paired db db' id (m.roles? id)) :
    Mapped (m :: made) db' := by
  refine ⟨?_, ?_⟩
  · intro id
    have hpair := hp id
    generalize m.roles? id = given at hpair
    cases hpair with
    | kept huser hmapping =>
        rw [huser, hmapping]
        exact h.inStep id
    | written huser hv hmapping => simp [huser, hmapping]
    | removed huser hmapping => simp [huser, hmapping]
  · intro id roles hroles hthere
    have hpair := hp id
    rw [List.findSome?_cons] at hroles
    generalize m.roles? id = given at hpair hroles
    cases hpair with
    | kept huser hmapping =>
        rw [huser] at hthere
        rw [hmapping]
        exact h.given id roles hroles hthere
    | written huser hv hmapping =>
        cases hroles
        exact ⟨_, hv, hmapping⟩
    | removed huser hmapping => simp [huser] at hthere

/-- A call that a store answers has the effect of its program, or the gate is closed and it has none. -/
theorem Called.step_cases {h h' : Host} {link : Option Link} {w : Terms} {c : Call}
    {result : Except CallError Answer} (hc : Service.Connects h link w db) (hblank : db ≠ .blank)
    (hcall : Service.call c h = ended result h') :
    (result = .error .notStarted ∧ Service.content h' link = db) ∨
      (result = (c.program.effect w db).result ∧
        Service.content h' link = (c.program.effect w db).database) := by
  have hinj {result' : Except CallError Answer} {h'' : Host} (h : ended result h' = ended result' h'') :
      result = result' ∧ h' = h'' := by
    cases result <;> cases result' <;> simp_all [ended]
  by_cases hopen : h.service.gate.isOpen
  · obtain ⟨h'', hended, hcontent⟩ := Service.call_of_connects c hc hblank hopen
    obtain ⟨rfl, rfl⟩ := hinj (hcall.symm.trans hended)
    exact .inr ⟨rfl, hcontent⟩
  · obtain ⟨h'', hended, hcontent⟩ := Service.content_of_closed c hopen link
    obtain ⟨rfl, rfl⟩ := hinj (hcall.symm.trans (hended : _ = ended (.error .notStarted) h''))
    exact .inl ⟨rfl, hcontent.trans hc.content_eq⟩

/-- A call of a store that could not connect fails. -/
theorem Called.error_of_refused {h h₁ h' : Host} {fault : StorageFault} {c : Call}
    {result : Except CallError Answer} (hc : Service.connect h = .error fault h₁)
    (hcall : Service.call c h = ended result h') : ∃ e, result = .error e := by
  obtain ⟨h₂, htold⟩ := Service.refused_announced hc c
  rw [Service.call_eq] at hcall
  cases result with
  | error e => exact ⟨e, rfl⟩
  | ok answer =>
      split at hcall
      · simp [Service.work, htold, ended] at hcall
      · cases hcall

theorem Called.mapped (hrun : Called db made db') (hm : db.IsMigrated) (hstep : db.InStep)
    (hdirect : ∀ m ∈ made, ¬ m.call.IsDirect) : db'.IsMigrated ∧ Mapped made db' := by
  induction hrun with
  | none => exact ⟨hm, hstep, by simp⟩
  | refused _ hc hcall ih =>
      obtain ⟨hmigrated, hmapped⟩ := ih fun m hmem => hdirect m (List.mem_cons_of_mem _ hmem)
      obtain ⟨e, rfl⟩ := error_of_refused hc hcall
      exact ⟨hmigrated, hmapped.step fun id => .kept rfl rfl⟩
  | @next made db' h h' link w c result hrun hc hcall ih =>
      obtain ⟨hmigrated, hmapped⟩ := ih fun m hmem => hdirect m (List.mem_cons_of_mem _ hmem)
      rcases step_cases hc hmigrated.ne_blank hcall with ⟨rfl, hcontent⟩ | ⟨rfl, hcontent⟩
      · rw [hcontent]
        exact ⟨hmigrated, hmapped.step fun id => .kept rfl rfl⟩
      · rw [hcontent]
        have hpaired := Call.paired_program (hdirect _ List.mem_cons_self) w db'
        exact ⟨hmigrated.of_edited (Call.edited_program c w db'), hmapped.step hpaired⟩

/-- **Users and their mappings stay in step.**  Wherever a run of calls has come, exactly the users
have a mapping under the default source, and a user who was added or updated on the way is found to
have the roles that came with the latest such call.  Nothing needs to be known of what the rows held
at first. -/
theorem Called.users_mapped (hm : db.IsMigrated) (hstep : db.InStep) (hrun : Called db made db')
    (hdirect : ∀ m ∈ made, ¬ m.call.IsDirect) :
    db'.InStep ∧ ∀ id roles, made.findSome? (·.roles? id) = some roles →
      (db'.row? .user [id]).isSome →
        ∃ v, (Records.read .mapping [id, "default"]).effect .free db'
          = ⟨.ok (some (.mapping { userId := id, source := "default", version := some v, roles })),
            db'⟩ := by
  obtain ⟨hmigrated, hmapped⟩ := hrun.mapped hm hstep hdirect
  refine ⟨hmapped.inStep, ?_⟩
  intro id roles hroles hthere
  obtain ⟨v, hv, hrow⟩ := hmapped.given id roles hroles hthere
  refine ⟨⟨v⟩, ?_⟩
  have hofRow : Records.ofRow .mapping _ = _ :=
    Record.ofRow_payload (.mapping { userId := id, source := "default", roles }) hv
  have hkey : (Record.mapping { userId := id, source := "default", version := some ⟨v⟩, roles }).key
      = [id, "default"] := rfl
  rw [Records.effect_read, hmigrated.readFault?_free, hrow]
  simp only [Records.inRow, hofRow, Record.withVersion, if_pos hkey]

/-- A started store over a database in memory. -/
def startedOn (db : Database) : Host where
  service := { backing := .memory db, defaults := {}, gate := .started }
  disk := { entries := .empty }

/-- A new database with one user who has one role. -/
def withUser : Database :=
  (Database.migrated.put .user ["a/b c"] ⟨1, Records.payload (.user { id := "a/b c" })⟩).put .mapping
    ["a/b c", "default"]
    ⟨1, Records.payload (.mapping { userId := "a/b c", source := "default", roles := .ofList ["dev"] })⟩

/-- A user is added, an update of the user comes with the wrong version and fails, and the user gets a
mapping under another source: the roles are those given first. -/
theorem users_mapped_of_failed_update : ∃ made db',
    Called .migrated made db' ∧ made.map (·.result.isOk) = [true, false, true] ∧ db'.InStep ∧
      ∃ v, (Records.read .mapping ["a/b c", "default"]).effect .free db' = ⟨.ok (some (.mapping
        { userId := "a/b c", source := "default", version := some v, roles := .ofList ["dev"] })), db'⟩ := by
  let add : Call := .addUser { id := "a/b c" } (.ofList ["dev"])
  let update : Call := .updateUser { id := "a/b c", version := some ⟨7⟩ } (.ofList ["ops"])
  let other : Call := .add (.mapping { userId := "a/b c", source := "ldap" }) (by decide)
  have hadd : Service.call add (startedOn .migrated)
      = ended (.ok (.version ⟨1⟩)) ((startedOn .migrated).after (.call add)) := rfl
  have hupdate : Service.call update (startedOn withUser)
      = ended (.error (.concurrentModification .user ["a/b c"]))
          ((startedOn withUser).after (.call update)) := rfl
  have hother : Service.call other (startedOn withUser)
      = ended (.ok (.version ⟨1⟩)) ((startedOn withUser).after (.call other)) := rfl
  have hadded : Called .migrated [⟨add, _⟩] withUser :=
    Called.none.next (Service.connects_memory rfl) hadd
  have hupdated : Called .migrated [⟨update, _⟩, ⟨add, _⟩] withUser :=
    hadded.next (Service.connects_memory rfl) hupdate
  have hrun := hupdated.next (Service.connects_memory rfl) hother
  have hdirect : ∀ m ∈ [⟨other, .ok (.version ⟨1⟩)⟩,
      ⟨update, .error (.concurrentModification .user ["a/b c"])⟩, ⟨add, .ok (.version ⟨1⟩)⟩],
      ¬ (m : Made).call.IsDirect := by
    intro m hm
    simp only [List.mem_cons, List.not_mem_nil, or_false] at hm
    rcases hm with rfl | rfl | rfl
    · rintro ⟨m, hm, hsource⟩
      cases hm
      exact absurd hsource (by decide)
    · exact fun h => h
    · exact fun h => h
  have hempty : InStep .migrated := fun id => by
    constructor <;> (intro h; cases h)
  obtain ⟨hstep, hgiven⟩ := Called.users_mapped isMigrated_migrated hempty hrun hdirect
  exact ⟨_, _, hrun, rfl, hstep, hgiven "a/b c" _ rfl rfl⟩

end Database

end AccessStore
