/-
What clients do with a store.

A client makes calls or works on the store itself, and each of these is a deed.  A deed
that fails has done nothing, and one that succeeds has committed to records what
`Deed.commits` says and nothing else: `logs_effect`.  Put together this gives
`logs_afterAll` for whatever clients do one after another.

Calls on users are transactions, but an update or a removal of another record is not one.
Where somebody comes in between its statements, it counts as a deed for each: a look
for the handle, and a writing or a deletion through it.
-/
import AccessStore.Proofs.Touches

namespace AccessStore

/-- What a client is told by what it does. -/
inductive Told
  | answer (answer : Answer)
  | handle (found : Option Handle)

/-- What a client does with the store: a call, or an operation on the store itself. -/
inductive Deed
  | call (c : Call)
  | browse (kind : Kind)
  | read (kind : Kind) (key : Key)
  /-- Look for the handle of a key. -/
  | lookUp (kind : Kind) (key : Key)
  | add (r : Record)
  | write (h : Handle) (r : Record)
  | delete (kind : Kind) (key : Key)
  /-- What is left of a deletion after the look for the handle. -/
  | deleteAt (kind : Kind) (h : Handle)

namespace Deed

open Call (records records_ok records_harmless)

/-- What is done. -/
def program : Deed → Program CallError Told
  | call c => c.program >>= fun a => pure (.answer a)
  | browse kind => records (Records.browse kind) >>= fun list => pure (.answer (.records list))
  | read kind key => records (Records.read kind key) >>= fun r => pure (.answer (.record r))
  | lookUp kind key => records (Records.handle? kind key) >>= fun h => pure (.handle h)
  | add r => records (Records.add r) >>= fun v => pure (.answer (.version v))
  | write h r => records (Records.write h r) >>= fun v => pure (.answer (.version v))
  | delete kind key => records (Records.delete kind key) >>= fun b => pure (.answer (.removed b))
  | deleteAt kind h => records (Records.deleteAt kind h) >>= fun b => pure (.answer (.removed b))

/-- What comes of it on a connection's terms, if it is done at a stretch. -/
def effect (d : Deed) (w : Terms) (db : Database) : Outcome CallError Told :=
  d.program.effect w db

/-- What a deed of which this was told has committed. -/
def commits : Deed → Told → Database → Commits
  | call c, .answer a, db => c.commits a db
  | add r, _, _ => .one .inserted r.kind r.key
  | write _ r, _, _ => .one .overwritten r.kind r.key
  | delete kind key, .answer (.removed existed), _ => .removal existed kind key
  | deleteAt kind h, .answer (.removed existed), _ => .removal existed kind h.key
  | _, _, _ => .none

/-- What a deed commits on a connection's terms; nothing if it fails. -/
def commitsOn (d : Deed) (w : Terms) (db : Database) : Commits :=
  match (d.effect w db).result with
  | .ok told => d.commits told db
  | .error _ => .none

variable {d : Deed} {w : Terms} {db db' : Database} {told : Told}

theorem harmless_effect (d : Deed) (w : Terms) (db : Database) : (d.effect w db).Harmless db := by
  cases d with
  | call c => exact Program.bind_pure_harmless _ (Call.harmless_program c w db)
  | browse kind =>
      exact Program.bind_pure_harmless _ (records_harmless fun _ _ => Records.browse_database kind w db)
  | read kind key =>
      exact Program.bind_pure_harmless _ (records_harmless fun _ _ => Records.read_database kind key w db)
  | lookUp kind key =>
      exact Program.bind_pure_harmless _
        (records_harmless fun _ _ => Records.handle?_database kind key w db)
  | add r => exact Program.bind_pure_harmless _ (records_harmless (Records.add_harmless r w db))
  | write h r =>
      exact Program.bind_pure_harmless _ (records_harmless (Records.write_harmless h r w db))
  | delete kind key =>
      exact Program.bind_pure_harmless _ (records_harmless (Records.delete_harmless kind key w db))
  | deleteAt kind h =>
      exact Program.bind_pure_harmless _ (records_harmless (Records.deleteAt_harmless kind h w db))

theorem logs_of_ok (hok : d.effect w db = ⟨.ok told, db'⟩) : Logs db db' (d.commits told db) := by
  cases d with
  | call c =>
      obtain ⟨answer, hanswer, rfl⟩ := Program.bind_pure_ok.mp hok
      exact Call.logs_of_ok hanswer
  | browse kind =>
      obtain ⟨list, hlist, -⟩ := Program.bind_pure_ok.mp hok
      exact .of_database (Records.browse_database kind w db) (records_ok.mp hlist)
  | read kind key =>
      obtain ⟨found, hfound, -⟩ := Program.bind_pure_ok.mp hok
      exact .of_database (Records.read_database kind key w db) (records_ok.mp hfound)
  | lookUp kind key =>
      obtain ⟨found, hfound, -⟩ := Program.bind_pure_ok.mp hok
      exact .of_database (Records.handle?_database kind key w db) (records_ok.mp hfound)
  | add r =>
      obtain ⟨v, hv, -⟩ := Program.bind_pure_ok.mp hok
      exact logs_add (records_ok.mp hv)
  | write h r =>
      obtain ⟨v, hv, -⟩ := Program.bind_pure_ok.mp hok
      exact logs_write (records_ok.mp hv)
  | delete kind key =>
      obtain ⟨existed, hexisted, rfl⟩ := Program.bind_pure_ok.mp hok
      exact logs_delete (records_ok.mp hexisted)
  | deleteAt kind h =>
      obtain ⟨existed, hexisted, rfl⟩ := Program.bind_pure_ok.mp hok
      exact logs_deleteAt (records_ok.mp hexisted)

/-- **What is done turns versions by what it commits.** -/
theorem logs_effect (d : Deed) (w : Terms) (db : Database) :
    Logs db (d.effect w db).database (d.commitsOn w db) := by
  rw [commitsOn]
  rcases ho : d.effect w db with ⟨result, db'⟩
  cases result with
  | ok told => exact logs_of_ok ho
  | error e => exact .of_eq ((harmless_effect d w db).database_eq ho)

/-- No step of what is done touches a marker or the schema. -/
theorem keepsFrame_program (d : Deed) : d.program.KeepsFrame := by
  cases d with
  | call c => exact c.keepsFrame_program.bind fun _ => .done _
  | browse kind => exact ((Records.keepsFrame_browse kind).mapError _).bind fun _ => .done _
  | read kind key => exact ((Records.keepsFrame_read kind key).mapError _).bind fun _ => .done _
  | lookUp kind key => exact ((Records.keepsFrame_handle? kind key).mapError _).bind fun _ => .done _
  | add r => exact ((Records.keepsFrame_add r).mapError _).bind fun _ => .done _
  | write h r => exact ((Records.keepsFrame_write r h).mapError _).bind fun _ => .done _
  | delete kind key => exact ((Records.keepsFrame_delete kind key).mapError _).bind fun _ => .done _
  | deleteAt kind h => exact ((Records.keepsFrame_deleteAt kind h).mapError _).bind fun _ => .done _

theorem sameFrame_effect (d : Deed) (w : Terms) (db : Database) :
    db.SameFrame (d.effect w db).database :=
  d.keepsFrame_program.effect w db

/-! ### Runs -/

/-- The content after all that was done, each on a connection of its own terms. -/
def afterAll (db : Database) : List (Terms × Deed) → Database
  | [] => db
  | (w, d) :: rest => afterAll (d.effect w db).database rest

/-- All that was committed to records. -/
def commitsAll (db : Database) : List (Terms × Deed) → Commits
  | [] => .none
  | (w, d) :: rest => (d.commitsOn w db).andThen (commitsAll (d.effect w db).database rest)

/-- All that was done to records. -/
def touchesAll (db : Database) (run : List (Terms × Deed)) : Touches := (commitsAll db run).touches

/-- **A run turns versions by what it commits.** -/
theorem logs_afterAll (db : Database) (run : List (Terms × Deed)) :
    Logs db (afterAll db run) (commitsAll db run) := by
  induction run generalizing db with
  | nil => exact .refl db
  | cons done rest ih => exact (done.2.logs_effect done.1 db).trans (ih _)

end Deed

end AccessStore
