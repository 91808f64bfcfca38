/-
What is left alone at every step of a call.

Clients work on rows.  The schema, the markers and which tables there are make up the frame
of a database, and that is the same after a call as before it, as has been seen.  But a call
may take several steps, with anything happening in between, and so it is said here of each
step by itself.  There are four statements that change anything, and three of them change a
table; the fourth marks a kind, and no call contains it.
-/
import AccessStore.Proofs.Edits

namespace AccessStore

/-! ### Frames -/

/-- Two contents differ in rows alone. -/
structure Database.SameFrame (db db' : Database) : Prop where
  schemaVersion : db'.schemaVersion = db.schemaVersion
  markers : db'.markers = db.markers
  tables : ∀ kind, (db'.table? kind).isSome = (db.table? kind).isSome

namespace Database

variable {db db' db'' : Database} {kind : Kind}

theorem SameFrame.refl (db : Database) : db.SameFrame db := ⟨rfl, rfl, fun _ => rfl⟩

theorem SameFrame.trans (h : db.SameFrame db') (h' : db'.SameFrame db'') : db.SameFrame db'' :=
  ⟨h'.schemaVersion.trans h.schemaVersion, h'.markers.trans h.markers,
    fun kind => (h'.tables kind).trans (h.tables kind)⟩

theorem SameFrame.symm (h : db.SameFrame db') : db'.SameFrame db :=
  ⟨h.schemaVersion.symm, h.markers.symm, fun kind => (h.tables kind).symm⟩

/-- A table that is there is replaced. -/
theorem sameFrame_setTable (h : (db.table? kind).isSome) (t : Table) :
    db.SameFrame (db.setTable kind t) := by
  refine ⟨by simp, by simp, fun other => ?_⟩
  rw [table?_setTable]
  split
  · rename_i hother
    rw [hother, h]
    rfl
  · rfl

theorem sameFrame_put (db : Database) (kind : Kind) (key : Key) (row : Row) :
    db.SameFrame (db.put kind key row) :=
  ⟨by simp, by simp, by simp⟩

theorem sameFrame_drop (db : Database) (kind : Kind) (key : Key) : db.SameFrame (db.drop kind key) :=
  ⟨by simp, by simp, by simp⟩

theorem SameFrame.of_edited {spots : Kind → Key → Prop} (h : Edited spots db db') :
    db.SameFrame db' :=
  ⟨h.schemaVersion, h.markers, h.isSome_table?⟩

theorem SameFrame.isMarked_eq (h : db.SameFrame db') (kind : Kind) :
    db'.isMarked kind = db.isMarked kind := by
  rw [isMarked, h.markers, isMarked]

theorem IsMigrated.of_sameFrame (hm : db.IsMigrated) (h : db.SameFrame db') : db'.IsMigrated :=
  ⟨h.schemaVersion.trans hm.schemaVersion, fun kind => by rw [h.tables, hm.tables],
    by rw [h.markers, hm.markers]⟩

end Database

/-! ### Statements -/

namespace Action

variable {ε δ α : Type}

/-- The action leaves the frame alone, on whatever terms. -/
def KeepsFrame (action : Action ε α) : Prop :=
  ∀ (w : Terms) (db : Database), db.SameFrame (action.effect w db).database

theorem KeepsFrame.mapError {action : Action ε α} (f : ε → δ) (ha : action.KeepsFrame) :
    (action.mapError f).KeepsFrame := by
  intro w db
  rw [effect_mapError]
  exact ha w db

theorem keepsFrame_table (kind : Kind) : (table kind).KeepsFrame := by
  intro w db
  rw [effect_table]
  split <;> exact .refl db

theorem keepsFrame_select (kind : Kind) (key : Key) : (select kind key).KeepsFrame := by
  intro w db
  rw [effect_select]
  split <;> exact .refl db

/-- A statement that changes a table puts another one in its place. -/
theorem keepsFrame_change (kind : Kind) (f : Table → Except StorageFault (α × Table)) :
    (change kind f).KeepsFrame := by
  intro w db
  rw [effect_change]
  cases hw : w.writeFault? db kind with
  | some fault => exact .refl db
  | none =>
      obtain ⟨t, ht⟩ := Terms.table?_of_writeFault? hw
      cases f (db.rows kind) with
      | ok r => exact Database.sameFrame_setTable (by rw [ht]; rfl) _
      | error fault => exact .refl db

end Action

/-! ### Programs -/

namespace Program

variable {ε δ α β : Type}

/-- Every step of the program leaves the frame alone. -/
inductive KeepsFrame : Program ε α → Prop
  | done (result : Except ε α) : KeepsFrame (done result)
  | step {β : Type} {action : Action ε β} {next : β → Program ε α}
      (ha : action.KeepsFrame) (hn : ∀ b, KeepsFrame (next b)) : KeepsFrame (step action next)

theorem keepsFrame_once {action : Action ε α} (ha : action.KeepsFrame) : (once action).KeepsFrame :=
  .step ha fun _ => .done _

theorem KeepsFrame.bind {p : Program ε α} {f : α → Program ε β} (hp : p.KeepsFrame)
    (hf : ∀ a, (f a).KeepsFrame) : (p >>= f).KeepsFrame := by
  induction hp with
  | done result =>
      cases result with
      | ok a => exact hf a
      | error e => exact .done _
  | step ha _ ih => exact .step ha ih

theorem KeepsFrame.mapError {p : Program ε α} (g : ε → δ) (hp : p.KeepsFrame) :
    (p.mapError g).KeepsFrame := by
  induction hp with
  | done result => exact .done _
  | step ha _ ih => exact .step (ha.mapError g) ih

/-- Run at a stretch the program leaves the frame alone, too. -/
theorem KeepsFrame.effect {p : Program ε α} (hp : p.KeepsFrame) (w : Terms) (db : Database) :
    db.SameFrame (p.effect w db).database := by
  induction hp generalizing db with
  | done result => exact .refl db
  | @step _ action next ha _ ih =>
      have hfirst := ha w db
      rw [Program.effect]
      rcases ho : action.effect w db with ⟨result, db'⟩
      rw [ho] at hfirst
      cases result with
      | ok b => exact hfirst.trans (ih b db')
      | error e => exact hfirst

theorem KeepsFrame.atomic {refused : StorageFault → ε} {p : Program ε α} (hplain : p.Plain)
    (hp : p.KeepsFrame) : (atomic refused p).KeepsFrame := by
  refine keepsFrame_once fun w db => ?_
  rw [Action.effect_atomic refused hplain.run, hplain.effect_run]
  cases w.barrier? with
  | some fault => exact .refl db
  | none =>
      have hkept := hp.effect w db
      show db.SameFrame ((p.effect w db).settle db).database
      rcases ho : p.effect w db with ⟨result, db'⟩
      rw [ho] at hkept
      cases result with
      | ok a => exact hkept
      | error e => exact .refl db

end Program

/-! ### Operations -/

namespace Records

open Program

variable (kind : Kind) (key : Key) (r : Record) (h : Handle)

theorem keepsFrame_statement {α : Type} {action : Action StorageFault α} (ha : action.KeepsFrame) :
    (statement action).KeepsFrame :=
  keepsFrame_once (ha.mapError _)

theorem keepsFrame_browse : (browse kind).KeepsFrame :=
  (keepsFrame_statement (Action.keepsFrame_table kind)).bind fun _ => .done _

theorem keepsFrame_handle? : (handle? kind key).KeepsFrame :=
  (keepsFrame_statement (Action.keepsFrame_select kind key)).bind fun _ => .done _

theorem keepsFrame_read : (read kind key).KeepsFrame := by
  refine (keepsFrame_statement (Action.keepsFrame_select kind key)).bind fun row => ?_
  cases row with
  | none => exact .done _
  | some row =>
      refine KeepsFrame.bind (.done _) fun r => ?_
      split <;> exact .done _

theorem keepsFrame_add : (add r).KeepsFrame := by
  refine KeepsFrame.bind (.done _) fun _ => ?_
  refine (keepsFrame_statement (Action.keepsFrame_change _ _)).bind fun added => ?_
  split <;> exact .done _

theorem keepsFrame_write : (write h r).KeepsFrame := by
  refine KeepsFrame.bind (.done _) fun _ => ?_
  split
  · exact .done _
  · refine (keepsFrame_statement (Action.keepsFrame_change _ _)).bind fun written => ?_
    split <;> exact .done _

theorem keepsFrame_deleteAt : (deleteAt kind h).KeepsFrame := by
  refine (keepsFrame_statement (Action.keepsFrame_change _ _)).bind fun deleted => ?_
  split
  · exact .done _
  · refine (keepsFrame_handle? kind h.key).bind fun handle => ?_
    cases handle <;> exact .done _

theorem keepsFrame_delete : (delete kind key).KeepsFrame := by
  refine (keepsFrame_handle? kind key).bind fun handle => ?_
  cases handle with
  | none => exact .done _
  | some h => exact keepsFrame_deleteAt kind h

end Records

/-! ### Calls -/

namespace Call

open Program

theorem keepsFrame_updateRecord (r : Record) : (updateRecord r).KeepsFrame := by
  refine KeepsFrame.bind (.done _) fun _ => ?_
  refine ((Records.keepsFrame_handle? r.kind r.key).mapError _).bind fun handle => ?_
  cases handle with
  | none => exact .done _
  | some h =>
      show (if _ then _ else _ : Program CallError Version).KeepsFrame
      split
      · exact .done _
      · exact (Records.keepsFrame_write r h).mapError _

/-- **No step of a call touches the schema, a marker or whether there is a table.** -/
theorem keepsFrame_program (c : Call) : c.program.KeepsFrame := by
  cases c with
  | browse kind => exact ((Records.keepsFrame_browse kind).mapError _).bind fun _ => .done _
  | get kind key => exact ((Records.keepsFrame_read kind key).mapError _).bind fun _ => .done _
  | addUser user roles =>
      refine (KeepsFrame.atomic (plain_addUserWith user roles) ?_).bind fun _ => .done _
      refine ((Records.keepsFrame_add (.user user)).mapError _).bind fun _ => ?_
      exact ((Records.keepsFrame_add (.mapping (.ofUser user.id roles))).mapError _).bind fun _ => .done _
  | updateUser user roles =>
      refine (KeepsFrame.atomic (plain_updateUserWith user roles) ?_).bind fun _ => .done _
      refine (keepsFrame_updateRecord (.user user)).bind fun _ => KeepsFrame.bind ?_ fun _ => .done _
      refine keepsFrame_once fun w db => ?_
      have hedited : Edited (fun _ _ => True) db
          ((putMapping (.ofUser user.id roles)).effect w db).database := edited_putMapping trivial w db
      exact .of_edited hedited
  | removeUser id =>
      refine (KeepsFrame.atomic (plain_removeUserWith id) ?_).bind fun _ => .done _
      refine ((Records.keepsFrame_delete .user [id]).mapError _).bind fun removed => ?_
      cases removed with
      | true => exact ((Records.keepsFrame_delete .mapping _).mapError _).bind fun _ => .done _
      | false => exact .done _
  | add r _ => exact ((Records.keepsFrame_add r).mapError _).bind fun _ => .done _
  | update r _ => exact (keepsFrame_updateRecord r).bind fun _ => .done _
  | remove kind key _ => exact ((Records.keepsFrame_delete kind key).mapError _).bind fun _ => .done _

end Call

end AccessStore
