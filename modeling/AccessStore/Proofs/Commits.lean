/-
What is committed to a record.

A record is inserted, overwritten any number of times and removed, and then it may all begin
anew.  Its version is one for the insertion and one more for each overwriting since, which is
`Commit.Turns.count`.  So it is enough to know what is committed.

A log keeps that for each record.  It is read off the operations and their answers, not off the
versions: an addition that succeeds inserts, a writing overwrites, and what failed is not in the
log.  `Logs` says that the versions of one content turn into those of another by what is in a
log.  One lemma for each operation shows it, and calls are put together of those.
-/
import AccessStore.Proofs.Frames

namespace AccessStore

/-! ### Logs of one record -/

/-- What is done to a record and committed. -/
inductive Commit
  | inserted
  | overwritten
  | removed
  deriving DecidableEq, Repr

namespace Commit

/-- The version of a record, none where there is no record, turns into another one by these commits, the
latest first in the list. -/
inductive Turns (before : Option Int) : List Commit → Option Int → Prop
  | nothing : Turns before [] before
  | inserted {log : List Commit} (h : Turns before log none) : Turns before (.inserted :: log) (some 1)
  | overwritten {log : List Commit} {v : Int} (h : Turns before log (some v)) :
      Turns before (.overwritten :: log) (some (v + 1))
  | removed {log : List Commit} {v : Int} (h : Turns before log (some v)) :
      Turns before (.removed :: log) none

variable {before middle after : Option Int} {log later : List Commit} {v : Int}

theorem Turns.trans (h : Turns before log middle) (h' : Turns middle later after) :
    Turns before (later ++ log) after := by
  induction h' with
  | nothing => exact h
  | inserted _ ih => exact .inserted ih
  | overwritten _ ih => exact .overwritten ih
  | removed _ ih => exact .removed ih

/-- **The version of a record is one and the number of times it was overwritten since it was inserted.** -/
theorem Turns.count (h : Turns none log (some v)) :
    ∃ n earlier, log = List.replicate n .overwritten ++ .inserted :: earlier ∧ v = 1 + (n : Int) := by
  generalize hafter : some v = after at h
  induction h generalizing v with
  | nothing => cases hafter
  | @inserted log _ _ =>
      cases hafter
      exact ⟨0, log, rfl, rfl⟩
  | @overwritten log u _ ih =>
      cases hafter
      obtain ⟨n, earlier, rfl, hu⟩ := ih rfl
      refine ⟨n + 1, earlier, rfl, ?_⟩
      push_cast
      omega
  | removed _ _ => cases hafter

/-- A record that is not there was never inserted, or removed last. -/
theorem Turns.absent (h : Turns none log none) : log = [] ∨ ∃ earlier, log = .removed :: earlier := by
  cases h with
  | nothing => exact .inl rfl
  | @removed log _ _ => exact .inr ⟨log, rfl⟩

end Commit

/-! ### Logs of all records -/

/-- What was committed to each record, the latest first. -/
abbrev Commits := Kind → Key → List Commit

namespace Commits

/-- Nothing was committed. -/
def none : Commits := fun _ _ => []

/-- One thing was done to one record. -/
def one (commit : Commit) (kind : Kind) (key : Key) : Commits :=
  fun other k => if other = kind ∧ k = key then [commit] else []

/-- First this was committed, then that. -/
def andThen (cs cs' : Commits) : Commits := fun kind key => cs' kind key ++ cs kind key

theorem none_andThen (cs : Commits) : none.andThen cs = cs :=
  funext fun kind => funext fun key => List.append_nil (cs kind key)

/-- These records were inserted one after another. -/
def insertions : List Record → Commits
  | [] => none
  | r :: rest => (one .inserted r.kind r.key).andThen (insertions rest)

/-- A record was put where there was one or not. -/
def saving (there : Bool) (kind : Kind) (key : Key) : Commits :=
  one (if there then .overwritten else .inserted) kind key

/-- A removal that tells whether there was a record. -/
def removal (existed : Bool) (kind : Kind) (key : Key) : Commits :=
  if existed then one .removed kind key else none

/-- These records were inserted if it was the first use of their kind. -/
def firstUse (first : Bool) (records : List Record) : Commits :=
  if first then insertions records else none

end Commits

/-- From one content to the other, versions have turned by what is in the log and by nothing else.  No
table is lost. -/
structure Logs (db db' : Database) (cs : Commits) : Prop where
  turns : ∀ kind key, Commit.Turns (db.version? kind key) (cs kind key) (db'.version? kind key)
  migrated : db.IsMigrated → db'.IsMigrated

namespace Logs

variable {db db₁ db₂ : Database} {cs cs' : Commits} {kind : Kind} {key : Key} {t : Table} {row : Row}

theorem refl (db : Database) : Logs db db .none := ⟨fun _ _ => .nothing, fun h => h⟩

theorem of_eq (h : db₁ = db) : Logs db db₁ .none := h ▸ refl db

/-- What leaves the content as it is commits nothing. -/
theorem of_database {ε α : Type} {o : Outcome ε α} {result : Except ε α} (hdb : o.database = db)
    (ho : o = ⟨result, db₁⟩) : Logs db db₁ .none := by
  rw [ho] at hdb
  exact of_eq hdb

theorem trans (h : Logs db db₁ cs) (h' : Logs db₁ db₂ cs') : Logs db db₂ (cs.andThen cs') :=
  ⟨fun kind key => (h.turns kind key).trans (h'.turns kind key), fun hm => h'.migrated (h.migrated hm)⟩

/-- A row was put, and its version is what the commit makes of the one before. -/
theorem put {commit : Commit} (ht : db.table? kind = some t)
    (hturns : Commit.Turns (db.version? kind key) [commit] (some row.version)) :
    Logs db (db.put kind key row) (.one commit kind key) := by
  refine ⟨fun other k => ?_, fun hm => hm.of_sameFrame (Database.sameFrame_put db kind key row)⟩
  rw [Database.version?_put ht, Commits.one]
  split
  · rename_i hsame
    rw [hsame.1, hsame.2]
    exact hturns
  · exact .nothing

theorem inserted (ht : db.table? kind = some t) (hrow : db.row? kind key = none)
    (hv : row.version = 1) : Logs db (db.put kind key row) (.one .inserted kind key) := by
  refine put ht ?_
  rw [Database.version?_of_no_row hrow, hv]
  exact .inserted .nothing

theorem overwritten {v : Int} (ht : db.table? kind = some t) (hold : db.version? kind key = some v)
    (hv : row.version = v + 1) : Logs db (db.put kind key row) (.one .overwritten kind key) := by
  refine put ht ?_
  rw [hold, hv]
  exact .overwritten .nothing

theorem removed (ht : db.table? kind = some t) (hrow : (db.row? kind key).isSome) :
    Logs db (db.drop kind key) (.one .removed kind key) := by
  obtain ⟨row, hrow⟩ := Option.isSome_iff_exists.mp hrow
  refine ⟨fun other k => ?_, fun hm => hm.of_sameFrame (Database.sameFrame_drop db kind key)⟩
  rw [Database.version?_drop ht, Commits.one]
  split
  · rename_i hsame
    rw [hsame.1, hsame.2, Database.version?_of_row? hrow]
    exact .removed .nothing
  · exact .nothing

/-- Marking a kind commits nothing to a record. -/
theorem mark (db : Database) (kind : Kind) : Logs db (db.mark kind) .none :=
  ⟨fun _ _ => .nothing, fun hm => hm.mark kind⟩

end Logs

/-! ### Operations -/

section Operations

variable {w : Terms} {db db' : Database} {r : Record} {v : Version} {kind : Kind} {key : Key}

theorem logs_add (hok : (Records.add r).effect w db = ⟨.ok v, db'⟩) :
    Logs db db' (.one .inserted r.kind r.key) := by
  obtain ⟨-, ⟨t, ht⟩, hrow, rfl⟩ := Records.add_ok hok
  exact .inserted ht hrow rfl

theorem logs_write {h : Handle} (hok : (Records.write h r).effect w db = ⟨.ok v, db'⟩) :
    Logs db db' (.one .overwritten r.kind r.key) := by
  obtain ⟨-, -, ⟨t, ht⟩, hold, rfl⟩ := Records.write_ok hok
  exact .overwritten ht hold rfl

theorem logs_updateRecord (hok : (Call.updateRecord r).effect w db = ⟨.ok v, db'⟩) :
    Logs db db' (.one .overwritten r.kind r.key) := by
  obtain ⟨⟨t, ht⟩, row, hrow, -, -, rfl⟩ := Call.updateRecord_ok hok
  exact .overwritten ht (Database.version?_of_row? hrow) rfl

theorem logs_delete {existed : Bool} (hok : (Records.delete kind key).effect w db = ⟨.ok existed, db'⟩) :
    Logs db db' (.removal existed kind key) := by
  rcases Records.delete_ok hok with ⟨rfl, ⟨t, ht⟩, hrow, rfl⟩ | ⟨rfl, -, rfl⟩
  · exact .removed ht hrow
  · exact .refl _

theorem logs_deleteAt {h : Handle} {existed : Bool}
    (hok : (Records.deleteAt kind h).effect w db = ⟨.ok existed, db'⟩) :
    Logs db db' (.removal existed kind h.key) := by
  rcases Records.deleteAt_ok hok with ⟨rfl, ⟨t, ht⟩, rfl⟩ | ⟨rfl, rfl⟩
  · refine .removed ht ?_
    -- Where there is no row nothing is said to have been there.
    rw [Records.effect_deleteAt] at hok
    cases hrow : db.row? kind h.key with
    | some row => rfl
    | none =>
        simp only [hrow] at hok
        split at hok <;> cases hok
  · exact .refl _

/-- Putting a mapping overwrites the one that is there or inserts one. -/
theorem logs_putMapping {m : Mapping} (hok : (Call.putMapping m).effect w db = ⟨.ok (), db'⟩) :
    Logs db db' (.saving (db.row? .mapping (Record.mapping m).key).isSome .mapping
      (Record.mapping m).key) := by
  rcases Call.putMapping_cases hok with ⟨v, hupdate⟩ | ⟨v, hadd⟩
  · obtain ⟨-, row, hrow, -⟩ := Call.updateRecord_ok hupdate
    have hthere : (db.row? .mapping (Record.mapping m).key).isSome = true := Option.isSome_of_eq_some hrow
    rw [hthere]
    exact logs_updateRecord hupdate
  · obtain ⟨-, -, hrow, -⟩ := Records.add_ok hadd
    have hnone : (db.row? .mapping (Record.mapping m).key).isSome = false := by
      rw [show db.row? .mapping (Record.mapping m).key = none from hrow]
      rfl
    rw [hnone]
    exact logs_add hadd

end Operations

/-! ### Calls -/

namespace Call

variable {w : Terms} {db db' : Database} {user : User} {roles : NameSet} {v : Version}

/-- What a call that gave this answer has committed.  A user is added together with a mapping; an
update puts the mapping too, and it depends on what was there whether that inserts it. -/
def commits (c : Call) (answer : Answer) (db : Database) : Commits :=
  match c, answer with
  | addUser user _, _ =>
      (Commits.one .inserted .user [user.id]).andThen
        (.one .inserted .mapping [user.id, Mapping.defaultSource])
  | updateUser user _, _ =>
      (Commits.one .overwritten .user [user.id]).andThen
        (.saving (db.row? .mapping [user.id, Mapping.defaultSource]).isSome .mapping
          [user.id, Mapping.defaultSource])
  | removeUser id, .removed existed =>
      (Commits.removal existed .user [id]).andThen
        (.removal (existed && (db.row? .mapping [id, Mapping.defaultSource]).isSome) .mapping
          [id, Mapping.defaultSource])
  | add r _, _ => .one .inserted r.kind r.key
  | update r _, _ => .one .overwritten r.kind r.key
  | remove kind key _, .removed existed => .removal existed kind key
  | _, _ => .none

/-- What a call has committed; nothing if it failed. -/
def commitsOf (c : Call) (result : Except CallError Answer) (db : Database) : Commits :=
  match result with
  | .ok answer => c.commits answer db
  | .error _ => .none

theorem logs_addUserWith (hok : (addUserWith user roles).effect w db = ⟨.ok v, db'⟩) :
    Logs db db' ((Commits.one .inserted .user [user.id]).andThen
      (.one .inserted .mapping [user.id, Mapping.defaultSource])) := by
  obtain ⟨db₁, v', huser, hmapping⟩ := addUserWith_ok hok
  exact (logs_add huser).trans (logs_add hmapping)

theorem logs_updateUserWith (hok : (updateUserWith user roles).effect w db = ⟨.ok v, db'⟩) :
    Logs db db' ((Commits.one .overwritten .user [user.id]).andThen
      (.saving (db.row? .mapping [user.id, Mapping.defaultSource]).isSome .mapping
        [user.id, Mapping.defaultSource])) := by
  obtain ⟨db₁, huser, hmapping⟩ := updateUserWith_ok hok
  have hput := logs_putMapping hmapping
  -- Updating the user has not touched the mapping.
  have hframe : db₁.row? .mapping [user.id, Mapping.defaultSource]
      = db.row? .mapping [user.id, Mapping.defaultSource] := by
    obtain ⟨-, row, -, -, -, rfl⟩ := updateRecord_ok huser
    exact Database.row?_put_ne db _ (by simp [Record.kind])
  rw [show (Record.mapping (.ofUser user.id roles)).key = [user.id, Mapping.defaultSource] from rfl,
    hframe] at hput
  exact (logs_updateRecord huser).trans hput

theorem logs_removeUserWith {id : String} {existed : Bool}
    (hok : (removeUserWith id).effect w db = ⟨.ok existed, db'⟩) :
    Logs db db' ((Commits.removal existed .user [id]).andThen
      (.removal (existed && (db.row? .mapping [id, Mapping.defaultSource]).isSome) .mapping
        [id, Mapping.defaultSource])) := by
  rcases removeUserWith_cases hok with ⟨rfl, huser⟩ | ⟨rfl, db₁, huser, hmapping⟩
  · exact (logs_delete huser).trans (.refl db')
  · rw [Bool.true_and]
    exact (logs_delete huser).trans (logs_delete hmapping)

theorem logs_of_ok {c : Call} {answer : Answer}
    (hok : c.program.effect w db = ⟨.ok answer, db'⟩) : Logs db db' (c.commits answer db) := by
  cases c with
  | browse kind =>
      obtain ⟨list, hlist, -⟩ := Program.bind_pure_ok.mp hok
      exact .of_database (Records.browse_database kind w db) (records_ok.mp hlist)
  | get kind key =>
      obtain ⟨found, hfound, -⟩ := Program.bind_pure_ok.mp hok
      exact .of_database (Records.read_database kind key w db) (records_ok.mp hfound)
  | addUser user roles =>
      obtain ⟨v, hv, -⟩ := Program.bind_pure_ok.mp hok
      exact logs_addUserWith (Program.atomic_ok (plain_addUserWith user roles) hv)
  | updateUser user roles =>
      obtain ⟨v, hv, -⟩ := Program.bind_pure_ok.mp hok
      exact logs_updateUserWith (Program.atomic_ok (plain_updateUserWith user roles) hv)
  | removeUser id =>
      obtain ⟨existed, hexisted, rfl⟩ := Program.bind_pure_ok.mp hok
      exact logs_removeUserWith (Program.atomic_ok (plain_removeUserWith id) hexisted)
  | add r _ =>
      obtain ⟨v, hv, -⟩ := Program.bind_pure_ok.mp hok
      exact logs_add (records_ok.mp hv)
  | update r _ =>
      obtain ⟨v, hv, -⟩ := Program.bind_pure_ok.mp hok
      exact logs_updateRecord hv
  | remove kind key _ =>
      obtain ⟨existed, hexisted, rfl⟩ := Program.bind_pure_ok.mp hok
      exact logs_delete (records_ok.mp hexisted)

theorem logs_program (c : Call) (w : Terms) (db : Database) :
    Logs db (c.program.effect w db).database (c.commitsOf (c.program.effect w db).result db) := by
  rcases ho : c.program.effect w db with ⟨result, db'⟩
  cases result with
  | ok answer => exact logs_of_ok ho
  | error e => exact .of_eq ((harmless_program c w db).database_eq ho)

end Call

end AccessStore
