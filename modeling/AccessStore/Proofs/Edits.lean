/-
What is done to rows.

Whatever clients do, and whatever a hook does, comes down to putting rows and dropping
rows.  A row that is put holds a record whose identity is not blank, under the record's
own key and with a version that is positive.  `Edited` says that this is all that lies
between two contents, and within which spots.  One lemma for each operation of a call shows
it, failed or not, and two things follow from it for all of them at once: rows elsewhere are
what they were, and so are the tables, the markers and the schema.
-/
import AccessStore.Database.Opening
import AccessStore.Proofs.Calls

namespace AccessStore

/-! ### Edits -/

/-- From one content to the other, rows in these spots have been put or dropped. -/
inductive Edited (spots : Kind → Key → Prop) (db : Database) : Database → Prop
  | same : Edited spots db db
  | put {db' : Database} {r : Record} {v : Int} (h : Edited spots db db')
      (hspot : spots r.kind r.key) (hnamed : r.blankIdentity? = none) (hv : 1 ≤ v) :
      Edited spots db (db'.put r.kind r.key ⟨v, Records.payload r⟩)
  | drop {db' : Database} {kind : Kind} {key : Key} (h : Edited spots db db')
      (hspot : spots kind key) : Edited spots db (db'.drop kind key)

namespace Database

/-- A row elsewhere does not matter, and where there is no table nothing is put. -/
theorem row?_put_ne (db : Database) {kind other : Kind} {key k : Key} (row : Row)
    (h : ¬ (other = kind ∧ k = key)) : (db.put kind key row).row? other k = db.row? other k := by
  cases ht : db.table? kind with
  | none => simp [put, ht]
  | some t => rw [row?_put ht, if_neg h]

theorem row?_drop_ne (db : Database) {kind other : Kind} {key k : Key}
    (h : ¬ (other = kind ∧ k = key)) : (db.drop kind key).row? other k = db.row? other k := by
  cases ht : db.table? kind with
  | none => simp [drop, ht]
  | some t => rw [row?_drop ht, if_neg h]

@[simp] theorem schemaVersion_put (db : Database) (kind : Kind) (key : Key) (row : Row) :
    (db.put kind key row).schemaVersion = db.schemaVersion := by
  unfold put
  split <;> rfl

@[simp] theorem schemaVersion_drop (db : Database) (kind : Kind) (key : Key) :
    (db.drop kind key).schemaVersion = db.schemaVersion := by
  unfold drop
  split <;> rfl

@[simp] theorem isSome_table?_put (db : Database) (kind : Kind) (key : Key) (row : Row)
    (other : Kind) : ((db.put kind key row).table? other).isSome = (db.table? other).isSome := by
  cases ht : db.table? kind with
  | none => simp [put, ht]
  | some t =>
      rw [put_eq ht, table?_setTable]
      split
      · rename_i hother
        rw [hother, ht]
        rfl
      · rfl

@[simp] theorem isSome_table?_drop (db : Database) (kind : Kind) (key : Key) (other : Kind) :
    ((db.drop kind key).table? other).isSome = (db.table? other).isSome := by
  cases ht : db.table? kind with
  | none => simp [drop, ht]
  | some t =>
      rw [drop_eq ht, table?_setTable]
      split
      · rename_i hother
        rw [hother, ht]
        rfl
      · rfl

/-- A table is there and has its rows, and there is nothing else to it. -/
theorem table?_eq_of_rows {db db' : Database} {kind : Kind}
    (hsome : (db'.table? kind).isSome = (db.table? kind).isSome)
    (hrows : ∀ key, db'.row? kind key = db.row? kind key) : db'.table? kind = db.table? kind := by
  cases ht : db.table? kind with
  | none => simpa [ht] using hsome
  | some t =>
      rw [ht, Option.isSome_some, Option.isSome_iff_exists] at hsome
      obtain ⟨t', ht'⟩ := hsome
      rw [ht', Option.some.injEq]
      apply SortedMap.ext_get?
      intro key
      rw [← row?_eq ht', ← row?_eq ht, hrows]

end Database

namespace Edited

variable {spots wider : Kind → Key → Prop} {db db' db'' : Database} {kind : Kind} {key : Key}

theorem trans (h : Edited spots db db') (h' : Edited spots db' db'') : Edited spots db db'' := by
  induction h' with
  | same => exact h
  | put _ hspot hnamed hv ih => exact ih.put hspot hnamed hv
  | drop _ hspot ih => exact ih.drop hspot

theorem mono (hsub : ∀ kind key, spots kind key → wider kind key) (h : Edited spots db db') :
    Edited wider db db' := by
  induction h with
  | same => exact .same
  | put _ hspot hnamed hv ih => exact ih.put (hsub _ _ hspot) hnamed hv
  | drop _ hspot ih => exact ih.drop (hsub _ _ hspot)

/-- **Rows elsewhere stay.** -/
theorem row?_eq (h : Edited spots db db') (hkey : ¬ spots kind key) :
    db'.row? kind key = db.row? kind key := by
  induction h with
  | same => rfl
  | @put _ r v _ hspot _ _ ih =>
      rw [Database.row?_put_ne, ih]
      rintro ⟨rfl, rfl⟩
      exact hkey hspot
  | drop _ hspot ih =>
      rw [Database.row?_drop_ne, ih]
      rintro ⟨rfl, rfl⟩
      exact hkey hspot

theorem version?_eq (h : Edited spots db db') (hkey : ¬ spots kind key) :
    db'.version? kind key = db.version? kind key := by
  rw [Database.version?, h.row?_eq hkey]
  rfl

theorem markers (h : Edited spots db db') : db'.markers = db.markers := by
  induction h with
  | same => rfl
  | put _ _ _ _ ih => rw [Database.markers_put, ih]
  | drop _ _ ih => rw [Database.markers_drop, ih]

theorem schemaVersion (h : Edited spots db db') : db'.schemaVersion = db.schemaVersion := by
  induction h with
  | same => rfl
  | put _ _ _ _ ih => rw [Database.schemaVersion_put, ih]
  | drop _ _ ih => rw [Database.schemaVersion_drop, ih]

theorem isSome_table? (h : Edited spots db db') (kind : Kind) :
    (db'.table? kind).isSome = (db.table? kind).isSome := by
  induction h with
  | same => rfl
  | put _ _ _ _ ih => rw [Database.isSome_table?_put, ih]
  | drop _ _ ih => rw [Database.isSome_table?_drop, ih]

/-- A table in which there are no spots stays as a whole. -/
theorem table?_eq (h : Edited spots db db') (hkind : ∀ key, ¬ spots kind key) :
    db'.table? kind = db.table? kind :=
  Database.table?_eq_of_rows (h.isSome_table? kind) fun key => h.row?_eq (hkind key)

variable {ε α β : Type} {o : Outcome ε α}

theorem andThen {f : α → Database → Outcome ε β} (h : Edited spots db o.database)
    (hf : ∀ a db', Edited spots db' (f a db').database) :
    Edited spots db (o.andThen f).database := by
  obtain ⟨result, db'⟩ := o
  cases result with
  | ok a => exact h.trans (hf a db')
  | error e => exact h

theorem orElse {f : ε → Database → Outcome ε α} (h : Edited spots db o.database)
    (hf : ∀ e db', Edited spots db' (f e db').database) :
    Edited spots db (o.orElse f).database := by
  obtain ⟨result, db'⟩ := o
  cases result with
  | ok a => exact h
  | error e => exact h.trans (hf e db')

theorem settle (h : Edited spots db o.database) : Edited spots db (o.settle db).database := by
  obtain ⟨result, db'⟩ := o
  cases result with
  | ok a => exact h
  | error e => exact .same

end Edited

/-! ### Operations -/

section Operations

variable {spots : Kind → Key → Prop} {r : Record}

theorem edited_add (hspot : spots r.kind r.key) (w : Terms) (db : Database) :
    Edited spots db ((Records.add r).effect w db).database := by
  rw [Records.effect_add]
  cases hnamed : r.blankIdentity? with
  | some blank => exact .same
  | none =>
      cases w.writeFault? db r.kind with
      | some fault => exact .same
      | none =>
          by_cases hrow : (db.row? r.kind r.key).isSome
          · simp only [if_pos hrow]
            exact .same
          · simp only [if_neg hrow]
            exact Edited.same.put hspot hnamed (by decide)

theorem edited_updateRecord (hspot : spots r.kind r.key) (w : Terms) (db : Database) :
    Edited spots db ((Call.updateRecord r).effect w db).database := by
  rw [Call.effect_updateRecord]
  cases hnamed : r.blankIdentity? with
  | some blank => exact .same
  | none =>
      cases w.readFault? db r.kind with
      | some fault => exact .same
      | none =>
          cases db.row? r.kind r.key with
          | none => exact .same
          | some row =>
              by_cases hv : Call.isOutdated r ⟨row.version⟩
              · simp only [if_pos hv]
                exact .same
              · simp only [if_neg hv]
                cases w.writeFault? db r.kind with
                | some fault => exact .same
                | none =>
                    by_cases hpos : row.version + 1 ≤ 0
                    · simp only [if_pos hpos]
                      exact .same
                    · simp only [if_neg hpos]
                      exact Edited.same.put hspot hnamed (by omega)

theorem edited_delete {kind : Kind} {key : Key} (hspot : spots kind key) (w : Terms) (db : Database) :
    Edited spots db ((Records.delete kind key).effect w db).database := by
  rw [Records.effect_delete]
  cases w.readFault? db kind with
  | some fault => exact .same
  | none =>
      by_cases hrow : (db.row? kind key).isSome
      · simp only [if_pos hrow]
        cases w.writeFault? db kind with
        | some fault => exact .same
        | none => exact Edited.same.drop hspot
      · simp only [if_neg hrow]
        exact .same

theorem edited_putMapping {m : Mapping} (hspot : spots .mapping (Record.mapping m).key) (w : Terms)
    (db : Database) : Edited spots db ((Call.putMapping m).effect w db).database := by
  have hadd (db : Database) :
      Edited spots db ((Call.records (Records.add (.mapping m))).effect w db).database := by
    rw [Call.effect_records]
    exact edited_add hspot w db
  rw [Call.effect_putMapping]
  refine Edited.orElse ((edited_updateRecord hspot w db).andThen fun _ db => .same) ?_
  intro e db
  cases e with
  | notFound kind key => exact (hadd db).andThen fun _ db => .same
  | _ => exact .same

end Operations

/-! ### Calls -/

namespace Call

/-- The spots of the rows that a call may change. -/
def changes : Call → Kind → Key → Prop
  | browse _, _, _ | get _ _, _, _ => False
  | addUser user _, kind, key | updateUser user _, kind, key =>
      (kind, key) = (.user, [user.id]) ∨ (kind, key) = (.mapping, [user.id, Mapping.defaultSource])
  | removeUser id, kind, key =>
      (kind, key) = (.user, [id]) ∨ (kind, key) = (.mapping, [id, Mapping.defaultSource])
  | add r _, kind, key | update r _, kind, key => (kind, key) = (r.kind, r.key)
  | remove kind' key' _, kind, key => (kind, key) = (kind', key')

variable {spots : Kind → Key → Prop}

theorem edited_records {α : Type} {p : Program StoreError α} {w : Terms} {db : Database}
    (hp : Edited spots db (p.effect w db).database) :
    Edited spots db ((records p).effect w db).database := by
  rw [effect_records]
  exact hp

theorem edited_bind_pure {α β : Type} {p : Program CallError α} {f : α → β} {w : Terms}
    {db : Database} (hp : Edited spots db (p.effect w db).database) :
    Edited spots db ((p >>= fun a => pure (f a)).effect w db).database := by
  rw [Program.effect_bind]
  exact hp.andThen fun _ db => .same

theorem edited_atomic {α : Type} {p : Program CallError α} (hplain : p.Plain) {w : Terms}
    {db : Database} (hp : Edited spots db (p.effect w db).database) :
    Edited spots db ((Program.atomic CallError.ofStorage p).effect w db).database := by
  rw [Program.effect_atomic _ hplain]
  cases w.barrier? with
  | some fault => exact .same
  | none => exact hp.settle

/-- **A call puts and drops rows in its spots and does nothing else**, whether it fails or not. -/
theorem edited_program (c : Call) (w : Terms) (db : Database) :
    Edited c.changes db (c.program.effect w db).database := by
  cases c with
  | browse kind =>
      refine edited_bind_pure (edited_records ?_)
      rw [Records.browse_database]
      exact .same
  | get kind key =>
      refine edited_bind_pure (edited_records ?_)
      rw [Records.read_database]
      exact .same
  | addUser user roles =>
      refine edited_bind_pure (edited_atomic (plain_addUserWith user roles) ?_)
      rw [addUserWith, Program.effect_bind]
      refine (edited_records (edited_add (.inl rfl) w db)).andThen ?_
      intro _ db
      exact edited_bind_pure (edited_records (edited_add (.inr rfl) w db))
  | updateUser user roles =>
      refine edited_bind_pure (edited_atomic (plain_updateUserWith user roles) ?_)
      rw [updateUserWith, Program.effect_bind]
      refine (edited_updateRecord (.inl rfl) w db).andThen fun _ db => edited_bind_pure ?_
      rw [Program.effect_once]
      exact edited_putMapping (.inr rfl) w db
  | removeUser id =>
      refine edited_bind_pure (edited_atomic (plain_removeUserWith id) ?_)
      rw [removeUserWith, Program.effect_bind]
      refine (edited_records (edited_delete (.inl rfl) w db)).andThen ?_
      intro removed db
      cases removed with
      | true => exact edited_bind_pure (edited_records (edited_delete (.inr rfl) w db))
      | false => exact .same
  | add r _ => exact edited_bind_pure (edited_records (edited_add rfl w db))
  | update r _ => exact edited_bind_pure (edited_updateRecord rfl w db)
  | remove kind key _ => exact edited_bind_pure (edited_records (edited_delete rfl w db))

end Call

/-! ### Migrated databases -/

namespace Database

/-- The database has the newest schema, with every table of it. -/
structure IsMigrated (db : Database) : Prop where
  schemaVersion : db.schemaVersion = latestSchema
  tables : ∀ kind, (db.table? kind).isSome
  markers : db.markers.isSome

theorem isMigrated_migrated : migrated.IsMigrated :=
  ⟨rfl, fun kind => by cases kind <;> rfl, rfl⟩

namespace IsMigrated

variable {db db' : Database}

theorem ne_blank (h : db.IsMigrated) : db ≠ .blank := by
  rintro rfl
  have hmarkers := h.markers
  simp [blank] at hmarkers

/-- Opening a migrated database changes nothing. -/
theorem migrate_eq (h : db.IsMigrated) : db.migrate = .ok db := by
  unfold migrate
  rw [h.schemaVersion]
  rfl

/-- Nothing that is done to rows takes a table away. -/
theorem of_edited {spots : Kind → Key → Prop} (h : db.IsMigrated) (he : Edited spots db db') :
    db'.IsMigrated := by
  refine ⟨?_, ?_, ?_⟩
  · rw [he.schemaVersion, h.schemaVersion]
  · intro kind
    rw [he.isSome_table?, h.tables]
  · rw [he.markers, h.markers]

theorem mark (h : db.IsMigrated) (kind : Kind) : (db.mark kind).IsMigrated := by
  refine ⟨h.schemaVersion, h.tables, ?_⟩
  have hmarkers := h.markers
  simpa [Database.mark] using hmarkers

/-- On free terms every table of a migrated database can be read and written, and every kind can be
marked. -/
theorem readFault?_free (h : db.IsMigrated) (kind : Kind) : Terms.free.readFault? db kind = none := by
  show (if (db.table? kind).isSome then none else some StorageFault.unknown) = none
  rw [if_pos (h.tables kind)]

theorem writeFault?_free (h : db.IsMigrated) (kind : Kind) :
    Terms.free.writeFault? db kind = none := by
  rw [Terms.writeFault?_eq_free, h.readFault?_free]

theorem markFault?_free (h : db.IsMigrated) : Terms.free.markFault? db = none := by
  show (if db.markers.isSome then Terms.free.refusal? else some StorageFault.unknown) = none
  rw [if_pos h.markers]
  rfl

end IsMigrated

end Database

end AccessStore
