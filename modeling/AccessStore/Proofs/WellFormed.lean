/-
The rows of a database that only stores have worked on.

The store does not trust its rows: it looks whether a payload can be read, whether it is
the record of its key, and whether the version is positive.  Here it is shown that, where
only stores have been at work, no such look ever finds anything wrong.  `WellFormed` is
the invariant.  It lasts through whatever is done to rows, since a row is only ever put
as `Edited` says and a payload is read as the record it was made of; and it lasts through
starts, whatever their defaults.  So it holds in every database that can be reached
(`Reached.wellFormed`), and there a call that nothing is in the way of never fails for
reasons of storage (`Reached.sound`).
-/
import AccessStore.Proofs.Interleaving
import AccessStore.Proofs.Starting

namespace AccessStore

@[simp] theorem Record.blankIdentity?_withVersion (r : Record) (v : Option Version) :
    (r.withVersion v).blankIdentity? = r.blankIdentity? := by
  cases r <;> rfl

/-! ### Rows -/

/-- The row of this kind and key is sound, and this is the record in it. -/
structure Row.Holds (row : Row) (kind : Kind) (key : Key) (r : Record) : Prop where
  version : 1 ≤ row.version
  /-- The payload is read as the record. -/
  payload : Record.ofText kind row.payload = .ok r
  /-- The record is of the kind and has the key under which the row is. -/
  kind : r.kind = kind
  key : r.key = key
  /-- The payload carries no version. -/
  unversioned : r.version = none
  named : r.blankIdentity? = none

/-- A row that is put holds its record. -/
theorem Row.holds_payload {r : Record} {v : Int} (hnamed : r.blankIdentity? = none) (hv : 1 ≤ v) :
    Row.Holds ⟨v, Records.payload r⟩ r.kind r.key (r.withVersion none) where
  version := hv
  payload := r.ofText_payload
  kind := Record.kind_withVersion r none
  key := Record.key_withVersion r none
  unversioned := Record.version_withVersion r none
  named := by rw [Record.blankIdentity?_withVersion, hnamed]

/-- The record in a sound row is found, with the row's version. -/
theorem Row.Holds.ofRow {row : Row} {kind : Kind} {key : Key} {r : Record} (h : row.Holds kind key r) :
    Records.ofRow kind row = .ok (r.withVersion (some ⟨row.version⟩)) := by
  have hv := h.version
  rw [Records.ofRow, h.payload]
  simp only [if_neg (show ¬ row.version < 1 by omega)]

namespace Database

/-- Every row of the database is sound, and no table of it is missing. -/
structure WellFormed (db : Database) : Prop extends db.IsMigrated where
  rows : ∀ kind key row, db.row? kind key = some row → ∃ r, row.Holds kind key r

theorem wellFormed_migrated : migrated.WellFormed := by
  refine ⟨isMigrated_migrated, ?_⟩
  intro kind key row hrow
  cases kind <;> cases hrow

namespace WellFormed

variable {db db' : Database} {spots : Kind → Key → Prop}

theorem put {r : Record} {v : Int} (h : db.WellFormed) (hnamed : r.blankIdentity? = none)
    (hv : 1 ≤ v) : (db.put r.kind r.key ⟨v, Records.payload r⟩).WellFormed := by
  have hedited : Edited (fun _ _ => True) db (db.put r.kind r.key ⟨v, Records.payload r⟩) :=
    Edited.same.put trivial hnamed hv
  refine ⟨h.toIsMigrated.of_edited hedited, ?_⟩
  intro kind key row hrow
  obtain ⟨t, ht⟩ := Option.isSome_iff_exists.mp (h.tables r.kind)
  rw [row?_put ht] at hrow
  split at hrow
  · rename_i hspot
    rw [← Option.some.inj hrow, hspot.1, hspot.2]
    exact ⟨_, Row.holds_payload hnamed hv⟩
  · exact h.rows kind key row hrow

theorem drop (h : db.WellFormed) (kind : Kind) (key : Key) : (db.drop kind key).WellFormed := by
  have hedited : Edited (fun _ _ => True) db (db.drop kind key) := Edited.same.drop trivial
  refine ⟨h.toIsMigrated.of_edited hedited, ?_⟩
  intro other k row hrow
  obtain ⟨t, ht⟩ := Option.isSome_iff_exists.mp (h.tables kind)
  rw [row?_drop ht] at hrow
  split at hrow
  · cases hrow
  · exact h.rows other k row hrow

/-- **What is done to rows keeps them sound.** -/
theorem of_edited (h : db.WellFormed) (he : Edited spots db db') : db'.WellFormed := by
  induction he with
  | same => exact h
  | put _ _ hnamed hv ih => exact ih.put hnamed hv
  | drop _ _ ih => exact ih.drop _ _

/-- Marking a kind is nothing to the rows. -/
theorem mark (h : db.WellFormed) (kind : Kind) : (db.mark kind).WellFormed :=
  ⟨h.toIsMigrated.mark kind, h.rows⟩

/-- A hook leaves sound rows, whatever it adds and however it ends. -/
theorem prepare (h : db.WellFormed) (kind : Kind) (hook : Hook) (w : Terms) :
    ((Registration.prepare kind hook).effect w db).database.WellFormed := by
  rw [Registration.effect_prepare]
  cases w.barrier? with
  | some fault => exact h
  | none =>
      cases w.markFault? db with
      | some fault => exact h
      | none =>
          by_cases hmarked : db.isMarked kind
          · simp only [if_pos hmarked]
            exact h
          · simp only [if_neg hmarked]
            have hrun := (h.mark kind).of_edited (hook.edited_run w (db.mark kind))
            rcases ho : hook.run.effect w (db.mark kind) with ⟨result, db'⟩
            rw [ho] at hrun
            cases result with
            | ok _ => exact hrun
            | error stop => exact h

end WellFormed

end Database

/-! ### Calls on sound rows -/

/-- What comes of something done to a sound database: it is still sound, and the storage was no reason
to fail. -/
structure Outcome.Sound {α : Type} (o : Outcome CallError α) : Prop where
  wellFormed : o.database.WellFormed
  result : ∀ e, o.result ≠ .error (.store e)

namespace Outcome.Sound

variable {α β : Type} {o : Outcome CallError α} {db : Database}

theorem ok (h : db.WellFormed) (a : α) : Sound (⟨.ok a, db⟩ : Outcome CallError α) :=
  ⟨h, fun e he => by cases he⟩

theorem andThen {f : α → Database → Outcome CallError β} (h : o.Sound)
    (hf : ∀ a db, db.WellFormed → (f a db).Sound) : (o.andThen f).Sound := by
  obtain ⟨result, db⟩ := o
  cases result with
  | ok a => exact hf a db h.wellFormed
  | error e => exact ⟨h.wellFormed, fun e' he => h.result e' (by cases he; rfl)⟩

theorem settle (h : o.Sound) (hdb : db.WellFormed) : (o.settle db).Sound := by
  obtain ⟨result, db'⟩ := o
  cases result with
  | ok a => exact h
  | error e => exact ⟨hdb, h.result⟩

end Outcome.Sound

namespace Call

variable {db : Database} {r : Record}

/-- An operation is sound if it leaves sound rows and fails for no reason of the storage. -/
theorem sound_records {α : Type} {p : Program StoreError α}
    (hp : (p.effect .free db).database.WellFormed)
    (hresult : ∀ e, (p.effect .free db).result.mapError CallError.ofStore ≠ .error (.store e)) :
    ((records p).effect .free db).Sound := by
  rw [effect_records]
  exact ⟨hp, hresult⟩

theorem sound_bind_pure {α β : Type} {p : Program CallError α} (f : α → β)
    (hp : (p.effect .free db).Sound) : ((p >>= fun a => pure (f a)).effect .free db).Sound := by
  rw [Program.effect_bind]
  exact hp.andThen fun a db hdb => .ok hdb (f a)

theorem sound_atomic {α : Type} {p : Program CallError α} (hplain : p.Plain) (h : db.WellFormed)
    (hp : (p.effect .free db).Sound) :
    ((Program.atomic CallError.ofStorage p).effect .free db).Sound := by
  rw [Program.effect_atomic _ hplain]
  exact hp.settle h

theorem sound_browse (h : db.WellFormed) (kind : Kind) :
    ((records (Records.browse kind)).effect .free db).Sound := by
  obtain ⟨t, ht⟩ := Option.isSome_iff_exists.mp (h.tables kind)
  have hsame : ((Records.browse kind).effect .free db).database = db :=
    Records.browse_database kind .free db
  refine sound_records (by rwa [hsame]) ?_
  intro e he
  rw [Records.effect_browse, h.readFault?_free, Database.rows, ht] at he
  simp only [Option.getD_some] at he
  cases hlist : t.entries.mapM fun entry => Records.ofRow kind entry.2 with
  | ok list =>
      rw [hlist] at he
      cases he
  | error damaged =>
      obtain ⟨before, entry, after, hentries, -, hdamaged⟩ := mapM_eq_error.mp hlist
      have hrow : db.row? kind entry.1 = some entry.2 := by
        rw [Database.row?_eq ht]
        exact SortedMap.get?_of_mem_entries (by simp [hentries])
      obtain ⟨r, hr⟩ := h.rows kind entry.1 entry.2 hrow
      rw [hr.ofRow] at hdamaged
      cases hdamaged

theorem sound_read (h : db.WellFormed) (kind : Kind) (key : Key) :
    ((records (Records.read kind key)).effect .free db).Sound := by
  have hsame : ((Records.read kind key).effect .free db).database = db :=
    Records.read_database kind key .free db
  refine sound_records (by rwa [hsame]) ?_
  intro e he
  rw [Records.effect_read, h.readFault?_free] at he
  cases hrow : db.row? kind key with
  | none =>
      rw [hrow] at he
      cases he
  | some row =>
      obtain ⟨r, hr⟩ := h.rows kind key row hrow
      have hkey : (r.withVersion (some ⟨row.version⟩)).key = key := by
        rw [Record.key_withVersion, hr.key]
      simp only [hrow, Records.inRow, hr.ofRow, if_pos hkey] at he
      cases he

theorem sound_add (h : db.WellFormed) (r : Record) :
    ((records (Records.add r)).effect .free db).Sound := by
  have hedited : Edited (fun _ _ => True) db ((Records.add r).effect .free db).database :=
    edited_add trivial .free db
  refine sound_records (h.of_edited hedited) ?_
  intro e he
  rw [effect_add_free h.toIsMigrated] at he
  split at he
  · cases he
  · split at he <;> cases he

theorem sound_updateRecord (h : db.WellFormed) (r : Record) :
    ((updateRecord r).effect .free db).Sound := by
  have hedited : Edited (fun _ _ => True) db ((updateRecord r).effect .free db).database :=
    edited_updateRecord trivial .free db
  refine ⟨h.of_edited hedited, ?_⟩
  intro e he
  rw [effect_updateRecord, h.readFault?_free, h.writeFault?_free] at he
  split at he
  · cases he
  · cases hrow : db.row? r.kind r.key with
    | none =>
        rw [hrow] at he
        cases he
    | some row =>
        -- The version after that of a sound row is positive.
        obtain ⟨held, hheld⟩ := h.rows r.kind r.key row hrow
        have hv := hheld.version
        simp only [hrow, if_neg (show ¬ row.version + 1 ≤ 0 by omega)] at he
        split at he <;> cases he

theorem sound_putMapping (h : db.WellFormed) (m : Mapping) :
    ((putMapping m).effect .free db).Sound := by
  have hupdate := sound_updateRecord h (.mapping m)
  rw [effect_putMapping]
  rcases ho : (updateRecord (.mapping m)).effect .free db with ⟨result, db'⟩
  rw [ho] at hupdate
  cases result with
  | ok v => exact .ok hupdate.wellFormed ()
  | error e =>
      cases e with
      | notFound kind key =>
          exact (sound_add hupdate.wellFormed (.mapping m)).andThen fun _ db hdb => .ok hdb ()
      | store e => exact absurd rfl (hupdate.result e)
      | _ => exact ⟨hupdate.wellFormed, fun e he => by cases he⟩

theorem sound_delete (h : db.WellFormed) (kind : Kind) (key : Key) :
    ((records (Records.delete kind key)).effect .free db).Sound := by
  have hedited : Edited (fun _ _ => True) db ((Records.delete kind key).effect .free db).database :=
    edited_delete trivial .free db
  refine sound_records (h.of_edited hedited) ?_
  intro e he
  rw [Records.effect_delete, h.readFault?_free, h.writeFault?_free] at he
  by_cases hrow : (db.row? kind key).isSome
  · simp only [if_pos hrow] at he
    cases he
  · simp only [if_neg hrow] at he
    cases he

/-- **A call on sound rows leaves sound rows, and the storage is no reason for it to fail.** -/
theorem sound_program (h : db.WellFormed) (c : Call) : (c.program.effect .free db).Sound := by
  cases c with
  | browse kind => exact sound_bind_pure _ (sound_browse h kind)
  | get kind key => exact sound_bind_pure _ (sound_read h kind key)
  | addUser user roles =>
      refine sound_bind_pure _ (sound_atomic (plain_addUserWith user roles) h ?_)
      rw [addUserWith, Program.effect_bind]
      exact (sound_add h _).andThen fun _ db hdb => sound_bind_pure _ (sound_add hdb _)
  | updateUser user roles =>
      refine sound_bind_pure _ (sound_atomic (plain_updateUserWith user roles) h ?_)
      rw [updateUserWith, Program.effect_bind]
      refine (sound_updateRecord h _).andThen fun _ db hdb => sound_bind_pure _ ?_
      rw [Program.effect_once]
      exact sound_putMapping hdb _
  | removeUser id =>
      refine sound_bind_pure _ (sound_atomic (plain_removeUserWith id) h ?_)
      rw [removeUserWith, Program.effect_bind]
      refine (sound_delete h _ _).andThen ?_
      intro removed db hdb
      cases removed with
      | true => exact sound_bind_pure _ (sound_delete hdb _ _)
      | false => exact .ok hdb false
  | add r _ => exact sound_bind_pure _ (sound_add h r)
  | update r _ => exact sound_bind_pure _ (sound_updateRecord h r)
  | remove kind key _ => exact sound_bind_pure _ (sound_delete h kind key)

end Call

/-! ### What can be reached -/

/-- What is done with a store. -/
inductive Use
  | start
  | stop
  | call (c : Call)

/-- What is left at the end, however it ended. -/
def leftBy {ε σ α : Type} : EStateM.Result ε σ α → σ
  | .ok _ state => state
  | .error _ state => state

@[simp] theorem leftBy_ended {ε σ α : Type} (result : Except ε α) (state : σ) :
    leftBy (ended result state) = state := by
  cases result <;> rfl

/-- The host once this was done with its store. -/
def Host.after (h : Host) : Use → Host
  | .start => leftBy (Service.start h)
  | .stop => leftBy (Service.stop (ε := Empty) h)
  | .call c => leftBy (Service.call c h)

/-- A stop does nothing to the database. -/
theorem Service.content_after_stop (h : Host) (link : Option Link) :
    content (h.after .stop) link = content h link := by
  refine content_of_same ?_ ?_ <;>
    · simp only [Host.after, stop]
      split <;> rfl

/-- The databases that come of stores and their clients.  A store may be of any state, so a new one
with other defaults may go on where another one ended, and several may take turns; what they share is
the content. -/
inductive Database.Reached : Database → Prop
  /-- A fresh database that was opened. -/
  | fresh {db : Database} (h : Database.blank.migrate = .ok db) : Reached db
  /-- One that was opened again. -/
  | opened {db db' : Database} (hr : Reached db) (h : db.migrate = .ok db') : Reached db'
  /-- Something was done with a store on it, on whatever terms. -/
  | used {db : Database} {h : Host} {link : Option Link} {w : Terms} (hr : Reached db)
      (hc : Service.Connects h link w db) (use : Use) : Reached (Service.content (h.after use) link)
  /-- Calls were made on it whose steps were interleaved. -/
  | played {db : Database} {ι : Type} [DecidableEq ι] (hr : Reached db) (calls : ι → Call)
      (schedule : List ι) : Reached (Play.run calls db schedule).database

namespace Database

variable {db : Database} {h : Host} {link : Option Link} {w : Terms}

/-- Whatever is done with a store, the rows stay sound. -/
theorem WellFormed.used (hdb : db.WellFormed) (hc : Service.Connects h link w db) (use : Use) :
    (Service.content (h.after use) link).WellFormed := by
  have hblank := hdb.ne_blank
  have hsame : (Service.content h link).WellFormed := by rwa [hc.content_eq]
  cases use with
  | start =>
      by_cases hopen : h.service.gate.isOpen
      · obtain ⟨h', hstart, hcontent⟩ := Service.start_of_open hopen link
        rw [Host.after, hstart]
        show (Service.content h' link).WellFormed
        rwa [hcontent]
      · obtain ⟨result, stage, hseed, hstage⟩ := Seeding.seedKinds_keeps
          (P := WellFormed) (d := h.service.defaults) (fun kind w db hdb => hdb.prepare kind _ w) Kind.all
          ⟨h.service.registrations, w.session db⟩ rfl hdb
        obtain ⟨h', hstart, hcontent, -⟩ :=
          Service.start_of_closed (by simpa using hopen) hc hblank hseed
        rw [Host.after, hstart, leftBy_ended, hcontent]
        exact hstage
  | stop =>
      rw [Service.content_after_stop]
      exact hsame
  | call c =>
      by_cases hopen : h.service.gate.isOpen
      · obtain ⟨h', hcall, hcontent⟩ := Service.call_of_connects c hc hblank hopen
        rw [Host.after, hcall, leftBy_ended, hcontent]
        exact hdb.of_edited (Call.edited_program c w db)
      · obtain ⟨h', hcall, hcontent⟩ := Service.content_of_closed c hopen link
        rw [Host.after, hcall]
        show (Service.content h' link).WellFormed
        rwa [hcontent]

/-- Calls whose steps are interleaved keep rows sound, too, for they come to the same as calls made
one after another. -/
theorem WellFormed.played {ι : Type} [DecidableEq ι] (hdb : db.WellFormed) (calls : ι → Call)
    (schedule : List ι) : (Play.run calls db schedule).database.WellFormed := by
  have hturns (order : List ι) (db : Database) (hdb : db.WellFormed) :
      (Play.inTurn calls order db).2.WellFormed := by
    induction order generalizing db with
    | nil => exact hdb
    | cons i rest ih =>
        refine ih _ ?_
        rw [Call.effect_run_program]
        exact hdb.of_edited (Call.edited_program _ _ _)
  obtain ⟨order, horder⟩ := Play.exists_linearizes calls db schedule
  rw [← horder.database]
  exact hturns order db hdb

/-- **Every database that can be reached is well formed.** -/
theorem Reached.wellFormed (hr : db.Reached) : db.WellFormed := by
  induction hr with
  | fresh h =>
      rw [← Except.ok.inj h]
      exact wellFormed_migrated
  | opened _ h ih =>
      rw [ih.migrate_eq] at h
      rwa [← Except.ok.inj h]
  | used _ hc use ih => exact ih.used hc use
  | played _ calls schedule ih => exact ih.played calls schedule

/-- **The representation of records is sound in every database that can be reached.**  Every row is,
no two rows of a table share a key, and so a call on a store whose connection nothing is in the way of
never fails for a reason of the storage. -/
theorem Reached.sound (hr : db.Reached) :
    (∀ kind, ∃ t, db.table? kind = some t ∧ (t.entries.map (·.1)).Nodup ∧
        ∀ entry ∈ t.entries, ∃ r, entry.2.Holds kind entry.1 r) ∧
      ∀ h link, Service.Connects h link .free db → ∀ c e h',
        Service.call c h ≠ .error (.store e) h' := by
  have hdb := hr.wellFormed
  refine ⟨?_, ?_⟩
  · intro kind
    obtain ⟨t, ht⟩ := Option.isSome_iff_exists.mp (hdb.tables kind)
    refine ⟨t, ht, ?_, fun entry hentry => hdb.rows kind entry.1 entry.2 ?_⟩
    · exact List.pairwise_map.mpr (t.ascending.imp fun hlt => SortedMap.ne_of_lt hlt)
    · rw [row?_eq ht]
      exact SortedMap.get?_of_mem_entries hentry
  · intro h link hc c e h' hcall
    by_cases hopen : h.service.gate.isOpen
    · obtain ⟨h'', hended, -⟩ := Service.call_of_connects c hc hdb.ne_blank hopen
      have hresult := (Call.sound_program hdb c).result e
      rw [hended] at hcall
      cases hcases : (c.program.effect .free db).result with
      | ok a =>
          rw [hcases] at hcall
          cases hcall
      | error e' =>
          rw [hcases] at hcall hresult
          exact hresult (by rw [(EStateM.Result.error.inj hcall).1])
    · obtain ⟨h'', hended, -⟩ := Service.content_of_closed c hopen link
      rw [hended] at hcall
      cases hcall

/-- A new store in memory with one role among its defaults. -/
def withRole : Host where
  service := .inMemory { roles := [{ id := "dev" }] }
  disk := { entries := .empty }

/-- Once it is started its database holds the role, and no call finds fault with that. -/
theorem sound_of_started :
    ((Service.content (withRole.after .start) none).row? .role ["dev"]).isSome ∧
      ∀ c e h', Service.call c (withRole.after .start) ≠ .error (.store e) h' := by
  have hstarted : (Service.content (withRole.after .start) none).Reached :=
    .used (.fresh rfl) (Service.connects_memory rfl) .start
  refine ⟨rfl, ?_⟩
  intro c e h'
  exact (Reached.sound hstarted).2 _ none (Service.connects_memory rfl) c e h'

end Database

end AccessStore
