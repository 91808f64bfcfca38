/-
What each call does.

The laws of the calls are put together from those of the operations.  Three things are
needed later.  Every call is plain, so it may be spoken of by its effect.  An update has
a law of its own, `effect_updateRecord`, since it is made of two operations and its
outcome depends on what stands between them.  And no call that fails leaves a trace:
where it is one operation, because operations are like that, and where it changes a user
and a mapping, because it is a transaction.
-/
import AccessStore.Call
import AccessStore.Proofs.Records

namespace AccessStore

namespace Call

variable {w : Terms} {db db' : Database} {r : Record} {α : Type}

/-! ### Operations as parts of calls -/

theorem plain_records {p : Program StoreError α} (hp : p.Plain) : (records p).Plain :=
  Program.plain_mapError _ hp

theorem effect_records (p : Program StoreError α) (w : Terms) (db : Database) :
    (records p).effect w db = (p.effect w db).mapError CallError.ofStore :=
  Program.effect_mapError _ p w db

theorem records_ok {p : Program StoreError α} {a : α} :
    (records p).effect w db = ⟨.ok a, db'⟩ ↔ p.effect w db = ⟨.ok a, db'⟩ := by
  rw [effect_records]
  exact Outcome.mapError_eq_ok

theorem records_harmless {p : Program StoreError α} {before : Database}
    (hp : (p.effect w db).Harmless before) : ((records p).effect w db).Harmless before := by
  rw [effect_records]
  exact hp.mapError _

/-! ### Updating -/

/-- The record carries a version, and not this one. -/
def isOutdated (r : Record) (version : Version) : Bool := r.version.any (· ≠ version)

theorem isOutdated_iff {version : Version} :
    isOutdated r version = true ↔ ∃ carried, r.version = some carried ∧ carried ≠ version := by
  cases h : r.version <;> simp [isOutdated, h]

theorem plain_updateRecord (r : Record) : (updateRecord r).Plain := by
  refine Program.plain_bind (Program.plain_ofExcept _) fun _ =>
    Program.plain_bind (plain_records (Records.plain_handle? _ _)) fun found => ?_
  cases found with
  | none => exact Program.plain_fail _
  | some h =>
      show Program.Plain (if r.version.any (· ≠ h.version) then _ else _)
      split
      · exact Program.plain_fail _
      · exact plain_records (Records.plain_write h r)

/-- An update puts the record at the version after the row's, unless the record carries another
version than the row. -/
theorem effect_updateRecord (r : Record) (w : Terms) (db : Database) :
    (updateRecord r).effect w db = match r.blankIdentity? with
      | some blank => ⟨.error (.invalid blank), db⟩
      | none => match w.readFault? db r.kind with
        | some fault => ⟨.error (CallError.ofStorage fault), db⟩
        | none => match db.row? r.kind r.key with
          | none => ⟨.error (.notFound r.kind r.key), db⟩
          | some row =>
              if isOutdated r ⟨row.version⟩ then
                ⟨.error (.concurrentModification r.kind r.key), db⟩
              else match w.writeFault? db r.kind with
                | some fault => ⟨.error (CallError.ofStorage fault), db⟩
                | none =>
                    if row.version + 1 ≤ 0 then ⟨.error (CallError.ofStorage .constraint), db⟩
                    else ⟨.ok ⟨row.version + 1⟩,
                      db.put r.kind r.key ⟨row.version + 1, Records.payload r⟩⟩ := by
  rw [updateRecord, Program.effect_bind, Program.effect_ofExcept, Records.identified]
  cases hid : r.blankIdentity? with
  | some blank => rfl
  | none =>
      show Outcome.andThen ⟨.ok (), db⟩ _ = _
      rw [Outcome.andThen_ok, Program.effect_bind, effect_records, Records.effect_handle?]
      cases hr : w.readFault? db r.kind with
      | some fault => rfl
      | none =>
          cases hrow : db.row? r.kind r.key with
          | none => rfl
          | some row =>
              simp only [Option.map_some, Outcome.mapError_ok, Outcome.andThen_ok]
              show Program.effect (if isOutdated r ⟨row.version⟩ then _ else _) w db = _
              by_cases hv : isOutdated r ⟨row.version⟩
              · rw [if_pos hv, if_pos hv, Program.effect_fail]
              · rw [if_neg hv, if_neg hv, effect_records, Records.effect_write, hid]
                cases w.writeFault? db r.kind with
                | some fault => simp; rfl
                | none =>
                    by_cases hpos : row.version + 1 ≤ 0
                    · simp [hrow, hpos]
                      rfl
                    · simp [hrow, hpos, Version.next]

theorem updateRecord_ok {v : Version} (hok : (updateRecord r).effect w db = ⟨.ok v, db'⟩) :
    (∃ t, db.table? r.kind = some t) ∧ ∃ row, db.row? r.kind r.key = some row ∧
      (∀ carried, r.version = some carried → carried.number = row.version) ∧
      v = ⟨row.version + 1⟩ ∧
      db' = db.put r.kind r.key ⟨row.version + 1, Records.payload r⟩ := by
  rw [effect_updateRecord] at hok
  cases hid : r.blankIdentity? with
  | some blank => simp [hid] at hok
  | none =>
      cases hr : w.readFault? db r.kind with
      | some fault => simp [hid, hr] at hok
      | none =>
          have htable := Terms.table?_of_readFault? hr
          cases hrow : db.row? r.kind r.key with
          | none => simp [hid, hr, hrow] at hok
          | some row =>
              by_cases hv : isOutdated r ⟨row.version⟩
              · simp [hid, hr, hrow, hv] at hok
              · cases hw : w.writeFault? db r.kind with
                | some fault => simp [hid, hr, hrow, hv, hw] at hok
                | none =>
                    by_cases hpos : row.version + 1 ≤ 0
                    · simp [hid, hr, hrow, hv, hw, hpos] at hok
                    · simp only [hid, hr, hrow, hv, hw, hpos, Bool.false_eq_true, if_false,
                        Outcome.mk.injEq, Except.ok.injEq] at hok
                      refine ⟨htable, row, rfl, ?_, hok.1.symm, hok.2.symm⟩
                      intro carried hcarried
                      refine Decidable.byContradiction fun hne => hv ?_
                      exact isOutdated_iff.mpr ⟨carried, hcarried, fun h => hne (by rw [h])⟩

theorem updateRecord_harmless (r : Record) (w : Terms) (db : Database) :
    ((updateRecord r).effect w db).Harmless db := by
  rw [effect_updateRecord]
  cases r.blankIdentity? with
  | some blank => exact Outcome.harmless_same _ _
  | none =>
      cases w.readFault? db r.kind with
      | some fault => exact Outcome.harmless_same _ _
      | none =>
          cases db.row? r.kind r.key with
          | none => exact Outcome.harmless_same _ _
          | some row =>
              by_cases hv : isOutdated r ⟨row.version⟩
              · simp only [if_pos hv]
                exact Outcome.harmless_same _ _
              · simp only [if_neg hv]
                cases w.writeFault? db r.kind with
                | some fault => exact Outcome.harmless_same _ _
                | none =>
                    by_cases hpos : row.version + 1 ≤ 0
                    · simp only [if_pos hpos]
                      exact Outcome.harmless_same _ _
                    · simp only [if_neg hpos]
                      exact Outcome.harmless_ok _ _ _

/-! ### Users and their mappings -/

theorem plain_putMapping (m : Mapping) : (putMapping m).Plain := by
  refine Action.plain_tryCatch
    (Action.plain_bind (plain_updateRecord _).run fun _ => Action.plain_pure ()) fun e => ?_
  cases e with
  | notFound kind key =>
      refine Action.plain_bind (Action.plain_tell _) fun _ => ?_
      exact Action.plain_bind (plain_records (Records.plain_add _)).run fun _ => Action.plain_pure ()
  | _ => exact Action.plain_throw _

theorem effect_putMapping (m : Mapping) (w : Terms) (db : Database) :
    (putMapping m).effect w db
      = (((updateRecord (.mapping m)).effect w db).andThen fun _ db => ⟨.ok (), db⟩).orElse
          fun e db => match e with
            | .notFound _ _ =>
                ((records (Records.add (.mapping m))).effect w db).andThen fun _ db => ⟨.ok (), db⟩
            | e => ⟨.error e, db⟩ := by
  have hupdate := (plain_updateRecord (.mapping m)).run
  have hadd := (plain_records (Records.plain_add (.mapping m))).run
  have hrest (e : CallError) : Action.Plain (match e with
      | .notFound _ _ => do
          Action.tell (mappingCreated m.userId)
          let _ ← (records (Records.add (.mapping m))).run
      | e => throw e : Action CallError Unit) := by
    cases e with
    | notFound kind key =>
        exact Action.plain_bind (Action.plain_tell _) fun _ =>
          Action.plain_bind hadd fun _ => Action.plain_pure ()
    | _ => exact Action.plain_throw _
  refine (Action.effect_tryCatch (Action.plain_bind hupdate fun _ => Action.plain_pure ())
    hrest w db).trans ?_
  rw [Action.effect_bind hupdate fun _ => Action.plain_pure (), (plain_updateRecord _).effect_run]
  refine congrArg _ (funext fun e => funext fun db => ?_)
  cases e with
  | notFound kind key =>
      rw [Action.effect_bind (Action.plain_tell _) fun _ =>
        Action.plain_bind hadd fun _ => Action.plain_pure (), Action.effect_tell, Outcome.andThen_ok,
        Action.effect_bind hadd fun _ => Action.plain_pure (),
        (plain_records (Records.plain_add _)).effect_run]
      rfl
  | _ => rfl

theorem plain_addUserWith (user : User) (roles : NameSet) : (addUserWith user roles).Plain :=
  Program.plain_bind (plain_records (Records.plain_add _)) fun _ =>
    Program.plain_bind (plain_records (Records.plain_add _)) fun _ => Program.plain_pure _

theorem plain_updateUserWith (user : User) (roles : NameSet) :
    (updateUserWith user roles).Plain :=
  Program.plain_bind (plain_updateRecord _) fun _ =>
    Program.plain_bind (Program.plain_once (plain_putMapping _)) fun _ => Program.plain_pure _

theorem plain_removeUserWith (id : String) : (removeUserWith id).Plain := by
  refine Program.plain_bind (plain_records (Records.plain_delete _ _)) fun removed => ?_
  cases removed with
  | true =>
      exact Program.plain_bind (plain_records (Records.plain_delete _ _)) fun _ =>
        Program.plain_pure _
  | false => exact Program.plain_pure _

/-- A mapping that was put was there and was updated, or was not there and was added. -/
theorem putMapping_cases {m : Mapping} (hok : (putMapping m).effect w db = ⟨.ok (), db'⟩) :
    (∃ v, (updateRecord (.mapping m)).effect w db = ⟨.ok v, db'⟩) ∨
      ∃ v, (Records.add (.mapping m)).effect w db = ⟨.ok v, db'⟩ := by
  rw [effect_putMapping] at hok
  rcases ho : (updateRecord (.mapping m)).effect w db with ⟨result, db₁⟩
  rw [ho] at hok
  cases result with
  | ok v =>
      simp only [Outcome.andThen_ok, Outcome.orElse_ok, Outcome.mk.injEq, true_and] at hok
      exact .inl ⟨v, by rw [hok]⟩
  | error e =>
      -- The update that failed has changed nothing.
      obtain rfl : db₁ = db := (updateRecord_harmless _ w db).database_eq ho
      cases e with
      | notFound kind key =>
          simp only [Outcome.andThen_error, Outcome.orElse_error] at hok
          obtain ⟨v, db₂, hadd, hend⟩ := Outcome.andThen_eq_ok.mp hok
          simp only [Outcome.mk.injEq, true_and] at hend
          exact .inr ⟨v, hend ▸ records_ok.mp hadd⟩
      | _ => simp at hok

/-- A user who was added was added first and the mapping then. -/
theorem addUserWith_ok {user : User} {roles : NameSet} {v : Version}
    (hok : (addUserWith user roles).effect w db = ⟨.ok v, db'⟩) :
    ∃ db₁ v', (Records.add (.user user)).effect w db = ⟨.ok v, db₁⟩ ∧
      (Records.add (.mapping (.ofUser user.id roles))).effect w db₁ = ⟨.ok v', db'⟩ := by
  rw [addUserWith, Program.effect_bind] at hok
  obtain ⟨version, db₁, huser, hrest⟩ := Outcome.andThen_eq_ok.mp hok
  obtain ⟨v', hmapping, rfl⟩ := Program.bind_pure_ok.mp hrest
  exact ⟨db₁, v', records_ok.mp huser, records_ok.mp hmapping⟩

/-- A user who was updated was updated first, and the mapping was put then. -/
theorem updateUserWith_ok {user : User} {roles : NameSet} {v : Version}
    (hok : (updateUserWith user roles).effect w db = ⟨.ok v, db'⟩) :
    ∃ db₁, (updateRecord (.user user)).effect w db = ⟨.ok v, db₁⟩ ∧
      (putMapping (.ofUser user.id roles)).effect w db₁ = ⟨.ok (), db'⟩ := by
  rw [updateUserWith, Program.effect_bind] at hok
  obtain ⟨version, db₁, huser, hrest⟩ := Outcome.andThen_eq_ok.mp hok
  obtain ⟨_, hmapping, rfl⟩ := Program.bind_pure_ok.mp hrest
  rw [Program.effect_once] at hmapping
  exact ⟨db₁, huser, hmapping⟩

/-- A user who was removed was removed first and the mapping then, if there was one. -/
theorem removeUserWith_cases {id : String} {existed : Bool}
    (hok : (removeUserWith id).effect w db = ⟨.ok existed, db'⟩) :
    (existed = false ∧ (Records.delete .user [id]).effect w db = ⟨.ok false, db'⟩) ∨
      existed = true ∧ ∃ db₁, (Records.delete .user [id]).effect w db = ⟨.ok true, db₁⟩ ∧
        (Records.delete .mapping [id, Mapping.defaultSource]).effect w db₁
          = ⟨.ok (db.row? .mapping [id, Mapping.defaultSource]).isSome, db'⟩ := by
  rw [removeUserWith, Program.effect_bind] at hok
  obtain ⟨removed, db₁, huser, hrest⟩ := Outcome.andThen_eq_ok.mp hok
  have huser := records_ok.mp huser
  cases removed with
  | false =>
      obtain ⟨rfl, rfl⟩ : false = existed ∧ db₁ = db' := by simpa using hrest
      exact .inl ⟨rfl, huser⟩
  | true =>
      simp only [if_true] at hrest
      obtain ⟨gone, hmapping, rfl⟩ := Program.bind_pure_ok.mp hrest
      have hmapping := records_ok.mp hmapping
      refine .inr ⟨rfl, db₁, huser, ?_⟩
      -- Removing the user has not touched the mapping.
      rcases Records.delete_ok huser with ⟨-, ⟨t, ht⟩, -, hdb⟩ | ⟨hfalse, -⟩
      · have hframe : db₁.row? .mapping [id, Mapping.defaultSource]
            = db.row? .mapping [id, Mapping.defaultSource] := by
          rw [hdb, Database.row?_drop ht]
          simp
        rw [← hframe]
        rcases Records.delete_ok hmapping with ⟨rfl, -, hrow, -⟩ | ⟨rfl, hrow, -⟩
        · rw [hrow]
          exact hmapping
        · rw [hrow]
          exact hmapping
      · cases hfalse

/-! ### Whole calls -/

/-- Nothing is lost by speaking of the effect of a call rather than of running it. -/
theorem effect_run_program (c : Call) (w : Terms) (db : Database) :
    c.program.run.effect w db = c.program.effect w db := by
  cases c with
  | addUser user roles => exact Program.effect_run_atomic _ _ _ _ _
  | updateUser user roles => exact Program.effect_run_atomic _ _ _ _ _
  | removeUser id => exact Program.effect_run_atomic _ _ _ _ _
  | browse kind =>
      exact (Program.plain_bind (plain_records (Records.plain_browse kind))
        fun _ => Program.plain_pure _).effect_run w db
  | get kind key =>
      exact (Program.plain_bind (plain_records (Records.plain_read kind key))
        fun _ => Program.plain_pure _).effect_run w db
  | add r _ =>
      exact (Program.plain_bind (plain_records (Records.plain_add r))
        fun _ => Program.plain_pure _).effect_run w db
  | update r _ =>
      exact (Program.plain_bind (plain_updateRecord r) fun _ => Program.plain_pure _).effect_run w db
  | remove kind key _ =>
      exact (Program.plain_bind (plain_records (Records.plain_delete kind key))
        fun _ => Program.plain_pure _).effect_run w db

/-- **A call that fails has no effect.** -/
theorem harmless_program (c : Call) (w : Terms) (db : Database) :
    (c.program.effect w db).Harmless db := by
  cases c with
  | browse kind =>
      exact Program.bind_pure_harmless _ (records_harmless fun _ _ => Records.browse_database kind w db)
  | get kind key =>
      exact Program.bind_pure_harmless _ (records_harmless fun _ _ => Records.read_database kind key w db)
  | addUser user roles =>
      exact Program.bind_pure_harmless _ (Program.atomic_harmless _ (plain_addUserWith _ _) w db)
  | updateUser user roles =>
      exact Program.bind_pure_harmless _ (Program.atomic_harmless _ (plain_updateUserWith _ _) w db)
  | removeUser id =>
      exact Program.bind_pure_harmless _ (Program.atomic_harmless _ (plain_removeUserWith _) w db)
  | add r _ => exact Program.bind_pure_harmless _ (records_harmless (Records.add_harmless r w db))
  | update r _ => exact Program.bind_pure_harmless _ (updateRecord_harmless r w db)
  | remove kind key _ =>
      exact Program.bind_pure_harmless _ (records_harmless (Records.delete_harmless kind key w db))

/-! ### Calls refused as stale -/

/-- The failure is that the record was changed in the meantime. -/
def Stale (result : Except CallError α) : Prop :=
  ∃ kind key, result = .error (.concurrentModification kind key)

/-- The record that an update gives. -/
def updated? : Call → Option Record
  | updateUser user _ => some (.user user)
  | update r _ => some r
  | _ => none

/-- The call is to update a record, and carries another version than the stored one. -/
def Outdated (c : Call) (db : Database) : Prop :=
  ∃ r row, c.updated? = some r ∧ db.row? r.kind r.key = some row ∧
    isOutdated r ⟨row.version⟩ = true

theorem stale_andThen {β : Type} {o : Outcome CallError α} {f : α → Database → Outcome CallError β}
    (h : Stale (o.andThen f).result) :
    Stale o.result ∨ ∃ a db', o = ⟨.ok a, db'⟩ ∧ Stale (f a db').result := by
  obtain ⟨result, db'⟩ := o
  cases result with
  | ok a => exact .inr ⟨a, db', rfl, h⟩
  | error e =>
      obtain ⟨kind, key, h⟩ := h
      cases h
      exact .inl ⟨kind, key, rfl⟩

theorem not_stale_ok (a : α) : ¬ Stale (.ok a) := by
  rintro ⟨kind, key, h⟩
  cases h

/-- What is made of a result in the end cannot be refused. -/
theorem stale_bind_pure {β : Type} {p : Program CallError α} {f : α → β}
    (h : Stale ((p >>= fun a => pure (f a)).effect w db).result) : Stale (p.effect w db).result := by
  rw [Program.effect_bind] at h
  rcases stale_andThen h with h | ⟨a, db', -, h⟩
  · exact h
  · exact absurd h (not_stale_ok _)

/-- An operation is refused as stale where a call made of it is. -/
theorem stale_records {p : Program StoreError α} (h : Stale ((records p).effect w db).result) :
    ∃ kind key, (p.effect w db).result = .error (.concurrentModification kind key) := by
  rw [effect_records] at h
  obtain ⟨kind, key, h⟩ := h
  rcases ho : p.effect w db with ⟨result, db'⟩
  rw [ho] at h
  cases result with
  | ok a => cases h
  | error e =>
      cases e <;> simp_all [CallError.ofStore]

theorem not_stale_add (r : Record) (w : Terms) (db : Database) :
    ¬ Stale ((records (Records.add r)).effect w db).result := by
  intro h
  obtain ⟨kind, key, h⟩ := stale_records h
  rw [Records.effect_add] at h
  split at h
  · simp at h
  · split at h
    · simp at h
    · split at h <;> simp at h

theorem not_stale_delete (kind : Kind) (key : Key) (w : Terms) (db : Database) :
    ¬ Stale ((records (Records.delete kind key)).effect w db).result := by
  intro h
  obtain ⟨k, key', h⟩ := stale_records h
  rw [Records.effect_delete] at h
  split at h
  · simp at h
  · split at h
    · split at h <;> simp at h
    · simp at h

/-- At a stretch an update is refused as stale only for the version that it carries. -/
theorem stale_updateRecord (h : Stale ((updateRecord r).effect w db).result) :
    ∃ row, db.row? r.kind r.key = some row ∧ isOutdated r ⟨row.version⟩ = true := by
  obtain ⟨kind, key, h⟩ := h
  rw [effect_updateRecord] at h
  split at h
  · simp at h
  · split at h
    · simp [CallError.ofStorage] at h
    · split at h
      · simp at h
      · rename_i row hrow
        split at h
        · rename_i hv
          exact ⟨row, hrow, hv⟩
        · split at h
          · simp [CallError.ofStorage] at h
          · split at h <;> simp [CallError.ofStorage] at h

theorem not_stale_putMapping (m : Mapping) (hm : m.version = none) (w : Terms) (db : Database) :
    ¬ Stale ((putMapping m).effect w db).result := by
  have hfresh (version : Version) : isOutdated (.mapping m) version = false := by
    simp [isOutdated, Record.version, hm]
  intro h
  rw [effect_putMapping] at h
  rcases ho : (updateRecord (.mapping m)).effect w db with ⟨result, db'⟩
  rw [ho] at h
  cases result with
  | ok v => exact not_stale_ok _ h
  | error e =>
      cases e with
      | notFound kind key =>
          simp only [Outcome.andThen_error, Outcome.orElse_error] at h
          rcases stale_andThen h with h | ⟨a, db'', -, h⟩
          · exact not_stale_add _ _ _ h
          · exact not_stale_ok _ h
      | concurrentModification kind key =>
          have hstale : Stale ((updateRecord (.mapping m)).effect w db).result :=
            ⟨kind, key, by rw [ho]⟩
          obtain ⟨row, -, hrow⟩ := stale_updateRecord hstale
          simp [hfresh] at hrow
      | _ =>
          obtain ⟨kind, key, h⟩ := h
          cases h

theorem stale_atomic {p : Program CallError α} (hp : p.Plain)
    (h : Stale ((Program.atomic CallError.ofStorage p).effect w db).result) :
    Stale (p.effect w db).result := by
  obtain ⟨kind, key, h⟩ := h
  rw [Program.effect_atomic _ hp] at h
  split at h
  · simp [CallError.ofStorage] at h
  · rcases ho : p.effect w db with ⟨result, db'⟩
    rw [ho] at h
    cases result with
    | ok a => simp at h
    | error e => exact ⟨kind, key, h⟩

/-- **At a stretch a call is refused as stale only for the version that it carries.** -/
theorem outdated_of_stale (c : Call) (h : Stale (c.program.effect w db).result) : c.Outdated db := by
  cases c with
  | browse kind =>
      obtain ⟨k, key, h⟩ := stale_records (stale_bind_pure h)
      rw [Records.effect_browse] at h
      split at h
      · simp at h
      · obtain ⟨damage, hdamage⟩ := Records.damaged_of_rows h
        cases hdamage
  | get kind key =>
      obtain ⟨k, key', h⟩ := stale_records (stale_bind_pure h)
      rw [Records.effect_read] at h
      split at h
      · simp at h
      · obtain ⟨damage, hdamage⟩ := Records.damaged_of_inRow h
        cases hdamage
  | addUser user roles =>
      have hbody := stale_atomic (plain_addUserWith user roles) (stale_bind_pure h)
      rw [addUserWith, Program.effect_bind] at hbody
      rcases stale_andThen hbody with hadd | ⟨v, db₁, -, hrest⟩
      · exact absurd hadd (not_stale_add _ w db)
      · exact absurd (stale_bind_pure hrest) (not_stale_add _ w db₁)
  | updateUser user roles =>
      have hbody := stale_atomic (plain_updateUserWith user roles) (stale_bind_pure h)
      rw [updateUserWith, Program.effect_bind] at hbody
      rcases stale_andThen hbody with hupdate | ⟨v, db₁, -, hrest⟩
      · obtain ⟨row, hrow, hv⟩ := stale_updateRecord hupdate
        exact ⟨.user user, row, rfl, hrow, hv⟩
      · rw [Program.effect_bind, Program.effect_once] at hrest
        rcases stale_andThen hrest with hput | ⟨v, db₂, -, hend⟩
        · exact absurd hput (not_stale_putMapping _ rfl w db₁)
        · exact absurd hend (not_stale_ok _)
  | removeUser id =>
      have hbody := stale_atomic (plain_removeUserWith id) (stale_bind_pure h)
      rw [removeUserWith, Program.effect_bind] at hbody
      rcases stale_andThen hbody with hdelete | ⟨removed, db₁, -, hrest⟩
      · exact absurd hdelete (not_stale_delete _ _ w db)
      · cases removed with
        | true =>
            simp only [if_true] at hrest
            exact absurd (stale_bind_pure hrest) (not_stale_delete _ _ w db₁)
        | false => exact absurd hrest (not_stale_ok _)
  | add r _ => exact absurd (stale_bind_pure h) (not_stale_add r w db)
  | update r _ =>
      obtain ⟨row, hrow, hv⟩ := stale_updateRecord (stale_bind_pure h)
      exact ⟨r, row, rfl, hrow, hv⟩
  | remove kind key _ => exact absurd (stale_bind_pure h) (not_stale_delete kind key w db)

end Call

end AccessStore
