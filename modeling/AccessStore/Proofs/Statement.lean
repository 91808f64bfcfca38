/-
What each statement does.

Every statement is plain, and its effect is said in terms of single rows: a look-up
finds `Database.row?`, an insertion or an update puts a row, a deletion drops one.  The
rest is why a statement is refused, which `Terms.readFault?` and `Terms.writeFault?` say
once for all of them.  After this file no proof looks inside a statement.
-/
import AccessStore.Proofs.Effect

namespace AccessStore

namespace Action

variable {α : Type}

/-! ### Reading -/

private theorem plain_and_effect_contents :
    contents.Plain ∧ ∀ w db, contents.effect w db = match w.bar with
      | some fault => ⟨.error fault, db⟩
      | none => ⟨.ok db, db⟩ := by
  refine plain_of_resume
    (fun w db => match w.bar with
      | some fault => ⟨.error fault, db⟩
      | none => ⟨.ok db, db⟩) fun s _ => ⟨[], ?_⟩
  rcases hb : s.bar with _ | fault <;> simp [contents, Session.resume, Session.terms, hb]

theorem plain_contents : contents.Plain := plain_and_effect_contents.1

theorem effect_contents (w : Terms) (db : Database) :
    contents.effect w db = match w.bar with
      | some fault => ⟨.error fault, db⟩
      | none => ⟨.ok db, db⟩ :=
  plain_and_effect_contents.2 w db

theorem plain_table (kind : Kind) : (table kind).Plain := by
  refine plain_bind plain_contents fun db => ?_
  cases db.table? kind with
  | none => exact plain_throw _
  | some t => exact plain_pure t

theorem effect_table (kind : Kind) (w : Terms) (db : Database) :
    (table kind).effect w db = match w.readFault? db kind with
      | some fault => ⟨.error fault, db⟩
      | none => ⟨.ok (db.rows kind), db⟩ := by
  rw [table, effect_bind plain_contents (fun db => by cases db.table? kind <;>
    first | exact plain_throw _ | exact plain_pure _)]
  rw [effect_contents]
  rcases hb : w.bar with _ | fault
  · rcases ht : db.table? kind with _ | t <;>
      simp [Terms.readFault?, Database.rows, hb, ht]
  · simp [Terms.readFault?, hb]

theorem plain_select (kind : Kind) (key : Key) : (select kind key).Plain :=
  plain_bind (plain_table kind) fun t => plain_pure (t.get? key)

/-- Looking up a row finds it. -/
theorem effect_select (kind : Kind) (key : Key) (w : Terms) (db : Database) :
    (select kind key).effect w db = match w.readFault? db kind with
      | some fault => ⟨.error fault, db⟩
      | none => ⟨.ok (db.row? kind key), db⟩ := by
  rw [select, effect_bind (plain_table kind) fun t => plain_pure (t.get? key), effect_table]
  rcases hr : w.readFault? db kind with _ | fault
  · obtain ⟨t, ht⟩ := Terms.table?_of_readFault? hr
    simp [Database.rows, ht, Database.row?_eq ht]
  · rfl

/-! ### Writing -/

private theorem plain_and_effect_claim :
    claim.Plain ∧ ∀ w db, claim.effect w db = match w.refusal? with
      | some fault => ⟨.error fault, db⟩
      | none => ⟨.ok (), db⟩ := by
  refine plain_of_resume
    (fun w db => match w.refusal? with
      | some fault => ⟨.error fault, db⟩
      | none => ⟨.ok (), db⟩) fun s hs => ⟨[], ?_⟩
  rw [claim, hs.refusal?_eq]
  rcases s.terms.refusal? with _ | fault <;> simp [Session.resume]

theorem plain_claim : claim.Plain := plain_and_effect_claim.1

theorem effect_claim (w : Terms) (db : Database) :
    claim.effect w db = match w.refusal? with
      | some fault => ⟨.error fault, db⟩
      | none => ⟨.ok (), db⟩ :=
  plain_and_effect_claim.2 w db

/-- Putting other content in the place of what statements see. -/
theorem plain_modify (f : Database → Database) :
    (modify fun s => s.setView (f s.view) : Action StorageFault Unit).Plain := by
  intro s _
  exact ⟨[], by rw [Session.resume]; exact congrArg _ (s.onward_eq_setView _).symm⟩

theorem effect_modify (f : Database → Database) (w : Terms) (db : Database) :
    (modify fun s => s.setView (f s.view) : Action StorageFault Unit).effect w db
      = ⟨.ok (), f db⟩ := rfl

theorem plain_change (kind : Kind) (f : Table → Except StorageFault (α × Table)) :
    (change kind f).Plain := by
  refine plain_bind (plain_table kind) fun t => plain_bind plain_claim fun _ =>
    plain_bind (plain_ofExcept _) fun r => ?_
  exact plain_bind (plain_modify fun db => db.setTable kind r.2) fun _ => plain_pure _

/-- A change of a table that can be written is what becomes of its rows. -/
theorem effect_change (kind : Kind) (f : Table → Except StorageFault (α × Table)) (w : Terms)
    (db : Database) :
    (change kind f).effect w db = match w.writeFault? db kind with
      | some fault => ⟨.error fault, db⟩
      | none => match f (db.rows kind) with
        | .ok (a, t) => ⟨.ok a, db.setTable kind t⟩
        | .error fault => ⟨.error fault, db⟩ := by
  have hwrite (r : α × Table) : Plain (do
      modify fun s => s.setView (s.view.setTable kind r.2)
      pure r.1 : Action StorageFault α) :=
    plain_bind (plain_modify fun db => db.setTable kind r.2) fun _ => plain_pure _
  have hchange (t : Table) : Plain (do
      let r ← ofExcept (f t)
      modify fun s => s.setView (s.view.setTable kind r.2)
      pure r.1 : Action StorageFault α) :=
    plain_bind (plain_ofExcept _) hwrite
  rw [change, effect_bind (plain_table kind) fun t => plain_bind plain_claim fun _ => hchange t,
    effect_table]
  rcases hread : w.readFault? db kind with _ | fault
  · rw [Outcome.andThen_ok, effect_bind plain_claim fun _ => hchange _, effect_claim]
    rcases hclaim : w.refusal? with _ | fault
    · rw [Outcome.andThen_ok, effect_bind (plain_ofExcept _) hwrite, effect_ofExcept]
      rcases hf : f (db.rows kind) with fault | ⟨a, t⟩
      · simp [Terms.writeFault?, hread, hclaim]
      · simp only [Terms.writeFault?, hread, hclaim, Outcome.andThen_ok]
        rw [effect_bind (plain_modify fun db => db.setTable kind t) fun _ => plain_pure _]
        rfl
    · simp [Terms.writeFault?, hread, hclaim]
  · simp [Terms.writeFault?, hread]

theorem plain_insert (kind : Kind) (key : Key) (row : Row) : (insert kind key row).Plain :=
  plain_change kind _

/-- An insertion puts the row unless there is one. -/
theorem effect_insert (kind : Kind) (key : Key) (row : Row) (w : Terms) (db : Database) :
    (insert kind key row).effect w db = match w.writeFault? db kind with
      | some fault => ⟨.error fault, db⟩
      | none =>
          if (db.row? kind key).isSome then ⟨.ok false, db⟩
          else ⟨.ok true, db.put kind key row⟩ := by
  rw [insert, effect_change]
  rcases hw : w.writeFault? db kind with _ | fault
  · obtain ⟨t, ht⟩ := Terms.table?_of_writeFault? hw
    simp only [Database.rows, ht, Option.getD_some, Table.insert?, Database.row?_eq ht,
      Database.put_eq ht]
    by_cases hrow : (t.get? key).isSome
    · simp [hrow, Database.setTable_self ht]
    · simp [hrow]
  · rfl

theorem plain_update (kind : Kind) (key : Key) (version : Int) (payload : String) :
    (update kind key version payload).Plain :=
  plain_change kind _

/-- An update puts the next version of the row, if the row has the version that is asked for. -/
theorem effect_update (kind : Kind) (key : Key) (version : Int) (payload : String) (w : Terms)
    (db : Database) :
    (update kind key version payload).effect w db = match w.writeFault? db kind with
      | some fault => ⟨.error fault, db⟩
      | none =>
          if (db.row? kind key).any (·.version = version) then
            if version + 1 ≤ 0 then ⟨.error .constraint, db⟩
            else ⟨.ok true, db.put kind key ⟨version + 1, payload⟩⟩
          else ⟨.ok false, db⟩ := by
  rw [update, effect_change]
  rcases hw : w.writeFault? db kind with _ | fault
  · obtain ⟨t, ht⟩ := Terms.table?_of_writeFault? hw
    simp only [Database.rows, ht, Option.getD_some, Table.update, Table.hasVersion,
      Database.row?_eq ht, Database.put_eq ht]
    by_cases hrow : (t.get? key).any (·.version = version)
    · simp only [if_pos hrow]
      by_cases hv : version + 1 ≤ 0
      · simp only [if_pos hv]
      · simp only [if_neg hv]
    · simp only [if_neg hrow, Database.setTable_self ht]
  · rfl

theorem plain_delete (kind : Kind) (key : Key) (version : Int) : (delete kind key version).Plain :=
  plain_change kind _

/-- A deletion drops the row, if it has the version that is asked for. -/
theorem effect_delete (kind : Kind) (key : Key) (version : Int) (w : Terms) (db : Database) :
    (delete kind key version).effect w db = match w.writeFault? db kind with
      | some fault => ⟨.error fault, db⟩
      | none =>
          if (db.row? kind key).any (·.version = version) then ⟨.ok true, db.drop kind key⟩
          else ⟨.ok false, db⟩ := by
  rw [delete, effect_change]
  rcases hw : w.writeFault? db kind with _ | fault
  · obtain ⟨t, ht⟩ := Terms.table?_of_writeFault? hw
    simp only [Database.rows, ht, Option.getD_some, Table.delete, Table.hasVersion,
      Database.row?_eq ht, Database.drop_eq ht]
    by_cases hrow : (t.get? key).any (·.version = version)
    · simp only [if_pos hrow]
    · simp only [if_neg hrow, Database.setTable_self ht]
  · rfl

private theorem plain_marking (kind : Kind) (markers : Option (PerKind Bool)) :
    Plain (match markers with
      | none => throw .unknown
      | some marks => do
          claim
          modify fun s => s.setView { s.view with markers := some (marks.set kind true) }
          pure (!marks.get kind) : Action StorageFault Bool) := by
  cases markers with
  | none => exact plain_throw _
  | some marks =>
      refine plain_bind plain_claim fun _ => plain_bind ?_ fun _ => plain_pure _
      exact plain_modify fun db => { db with markers := some (marks.set kind true) }

theorem plain_mark (kind : Kind) : (mark kind).Plain :=
  plain_bind plain_contents fun db => plain_marking kind db.markers

/-- Marking a kind tells whether it was not marked before. -/
theorem effect_mark (kind : Kind) (w : Terms) (db : Database) :
    (mark kind).effect w db = match w.markFault? db with
      | some fault => ⟨.error fault, db⟩
      | none => ⟨.ok (!db.isMarked kind), db.mark kind⟩ := by
  refine (effect_bind plain_contents (fun db => plain_marking kind db.markers) w db).trans ?_
  rw [effect_contents]
  rcases hb : w.bar with _ | fault
  · simp only [Outcome.andThen_ok]
    rcases hm : db.markers with _ | marks
    · simp [Terms.markFault?, hb, hm]
    · have hwrite := plain_modify fun db => { db with markers := some (marks.set kind true) }
      simp only
      rw [effect_bind plain_claim fun _ => plain_bind hwrite fun _ => plain_pure _, effect_claim]
      rcases hr : w.refusal? with _ | fault
      · simp only [Outcome.andThen_ok, Terms.markFault?, hb, hm, hr]
        rw [effect_bind hwrite fun _ => plain_pure _,
          effect_modify fun db => { db with markers := some (marks.set kind true) }]
        simp [Database.isMarked, Database.mark, hm]
      · simp [Terms.markFault?, hb, hm, hr]
  · simp [Terms.markFault?, hb]

end Action

end AccessStore
