/-
Opening a database.

An opening brings the content of a database to the newest schema or leaves it alone, whatever is in its
way: `content_of_opening`.  The transaction takes care of that, and neither making the connection nor
having the database keep a log is a change of content.  Where nothing is in the way, the schema version
alone decides which of the two it is, `opening_migrates`.

What has been opened is settled, and so is what was refused for its version.  A settled content stays
what it is however often the database is opened, so a history of openings and of changes by others comes
to the changes alone, `History.of_settled`.
-/
import AccessStore.Proofs.StoreOpening
import AccessStore.Proofs.Steadiness

namespace AccessStore

/-! ### Content and schema versions -/

namespace Database

variable {db db' : Database}

theorem migrate_of_negative (h : db.schemaVersion < 0) : db.migrate = .error (.storage .outOfRange) :=
  if_pos h

theorem migrate_of_newer (h : latestSchema < db.schemaVersion) :
    db.migrate = .error (.unsupportedSchema db.schemaVersion) := by
  have hcounted : ¬ db.schemaVersion < 0 := by
    unfold latestSchema at h
    omega
  rw [migrate, if_neg hcounted, if_pos h]

theorem migrate_of_latest (h : db.schemaVersion = latestSchema) : db.migrate = .ok db := by
  rw [migrate, h]
  rfl

theorem migrate_of_older (hcounted : 0 ≤ db.schemaVersion) (h : db.schemaVersion < latestSchema) :
    db.migrate = .ok db.upgraded := by
  rw [migrate, if_neg (by omega), if_neg (by omega), if_neg (by omega)]

/-- The content is of the newest schema, and besides that only tables that were missing have been added,
all of them empty. -/
structure Upgrade (db db' : Database) : Prop where
  schemaVersion : db'.schemaVersion = latestSchema
  tables (kind : Kind) : db'.table? kind = some ((db.table? kind).getD .empty)
  markers : db'.markers = some (db.markers.getD (.fill false))

theorem upgrade_upgraded (db : Database) : db.Upgrade db.upgraded :=
  ⟨rfl, fun kind => by cases kind <;> rfl, rfl⟩

/-- Migration leaves the content as it is, if it does not refuse it. -/
def Settled (db : Database) : Prop := ∀ db', db.migrate = .ok db' → db' = db

theorem settled_iff : db.Settled ↔ db.schemaVersion < 0 ∨ latestSchema ≤ db.schemaVersion := by
  constructor
  · intro hsettled
    by_contra hversion
    have hupgraded := hsettled _ (migrate_of_older (by omega) (by omega))
    have hlatest : db.schemaVersion = latestSchema := by rw [← hupgraded]; rfl
    omega
  · rintro (hnegative | hlatest) db' hmigrate
    · rw [migrate_of_negative hnegative] at hmigrate
      cases hmigrate
    · rcases hlatest.lt_or_eq with hnewer | hsame
      · rw [migrate_of_newer hnewer] at hmigrate
        cases hmigrate
      · rw [migrate_of_latest hsame.symm] at hmigrate
        exact (Except.ok.inj hmigrate).symm

/-- What comes of a migration is of the newest schema. -/
theorem schemaVersion_of_migrate (h : db.migrate = .ok db') : db'.schemaVersion = latestSchema := by
  rw [migrate] at h
  split_ifs at h with hnegative hnewer hlatest
  · rw [← Except.ok.inj h, hlatest]
  · rw [← Except.ok.inj h]
    rfl

theorem settled_of_migrate (h : db.migrate = .ok db') : db'.Settled :=
  settled_iff.mpr (.inr (schemaVersion_of_migrate h).ge)

end Database

/-! ### The transaction -/

namespace Opening

open Database

/-- What comes of the upgrading in the transaction. -/
def upgradingOutcome (w : Terms) (db : Database) : AccessStore.Outcome DatabaseError Unit :=
  match db.migrate with
  | .error e => ⟨.error e, db⟩
  | .ok db' =>
      if db.schemaVersion = latestSchema then ⟨.ok (), db'⟩
      else
        match w.refusal? with
        | some fault => ⟨.error (.storage fault), db⟩
        | none => ⟨.ok (), db'⟩

theorem upgrading_apply (s : Session) : upgrading s = match s.view.migrate with
    | .error e => .error e s
    | .ok db =>
        if s.view.schemaVersion = latestSchema then .ok () (s.setView db)
        else
          match s.refusal? with
          | some fault => .error (.storage fault) s
          | none => .ok () (s.setView db) := by
  have happly : upgrading s = (Action.ofExcept s.view.migrate >>= fun db => do
      if s.view.schemaVersion ≠ latestSchema then Action.claim.mapError .storage
      set (s.setView db) : Action DatabaseError Unit) s := rfl
  cases hmigrate : s.view.migrate with
  | error e =>
      rw [happly, hmigrate]
      rfl
  | ok db =>
      rw [happly, hmigrate]
      by_cases hlatest : s.view.schemaVersion = latestSchema
      · simp only [hlatest, ne_eq, not_true_eq_false, if_true, if_false]
        rfl
      · simp only [hlatest, ne_eq, not_false_eq_true, if_true, if_false]
        cases hrefusal : s.refusal? with
        | some fault =>
            simp [bind, EStateM.bind, Action.ofExcept, pure, EStateM.pure, Action.mapError, Action.claim,
              hrefusal]
        | none =>
            simp [bind, EStateM.bind, Action.ofExcept, pure, EStateM.pure, Action.mapError, Action.claim,
              hrefusal]
            rfl

theorem plain_and_effect_upgrading :
    upgrading.Plain ∧ ∀ w db, upgrading.effect w db = upgradingOutcome w db := by
  refine Action.plain_of_resume upgradingOutcome fun s hs => ⟨[], ?_⟩
  rw [upgrading_apply, hs.refusal?_eq, upgradingOutcome]
  cases s.view.migrate with
  | error e => simp [Session.resume]
  | ok db =>
      by_cases hlatest : s.view.schemaVersion = latestSchema
      · simp [hlatest, Session.resume, Session.onward_eq_setView]
      · cases s.terms.refusal? <;> simp [hlatest, Session.resume, Session.onward_eq_setView]

theorem effect_migration (w : Terms) (db : Database) : migration.effect w db = match w.barrier? with
    | some fault => ⟨.error (.storage fault), db⟩
    | none => (upgradingOutcome w db).settle db := by
  rw [← plain_and_effect_upgrading.2]
  exact Action.effect_atomic .storage plain_and_effect_upgrading.1 w db

/-- A migration that succeeds is one of the content, and one that fails is none. -/
theorem migration_cases (w : Terms) (db : Database) :
    (∃ db', db.migrate = .ok db' ∧ migration.effect w db = ⟨.ok (), db'⟩) ∨
      ∃ e, migration.effect w db = ⟨.error e, db⟩ := by
  rw [effect_migration]
  cases w.barrier? with
  | some fault => exact .inr ⟨_, rfl⟩
  | none =>
      unfold upgradingOutcome
      cases db.migrate with
      | error e => exact .inr ⟨e, rfl⟩
      | ok db' =>
          dsimp only
          split_ifs
          · exact .inl ⟨db', rfl, rfl⟩
          · cases w.refusal? with
            | some fault => exact .inr ⟨_, rfl⟩
            | none => exact .inl ⟨db', rfl, rfl⟩

/-- On free terms the content decides. -/
theorem migration_free (db : Database) : migration.effect .free db = match db.migrate with
    | .error e => ⟨.error e, db⟩
    | .ok db' => ⟨.ok (), db'⟩ := by
  rw [effect_migration]
  have hbarrier : Terms.free.barrier? = none := rfl
  have hrefusal : Terms.free.refusal? = none := rfl
  rw [hbarrier]
  unfold upgradingOutcome
  rw [hrefusal]
  cases db.migrate with
  | error e => rfl
  | ok db' =>
      dsimp only
      split_ifs <;> rfl

end Opening

/-! ### Working on a file -/

namespace Disk

variable {disk : Disk} {a : Address} {place p : Place}

/-- What is stored is the content of the file from then on, and no other content is touched, except that
the log and its memory come and go. -/
theorem contentAt_store (hplace : place ≠ []) (hp : ¬ IsBeside place p) (content : Database) :
    (disk.store (.file a place) content).contentAt p = if p = place then content else disk.contentAt p := by
  have hkeep : (disk.keep place content).contentAt p = if p = place then content else disk.contentAt p := by
    split
    · rename_i heq
      rw [heq, contentAt_keep hplace]
    · rename_i hne
      unfold keep
      split
      · rfl
      · exact contentAt_put_ne _ hne
  rw [store]
  split
  · rw [contentAt_tidy a hp, hkeep]
  · exact hkeep

/-- Work has the effect of its action on the content. -/
theorem work_file {ε α : Type} (disk : Disk) (a : Address) (place : Place) (action : Action ε α) :
    disk.work (.file a place) action =
      let o := action.effect ((Link.file a place).session disk).terms (disk.contentAt place)
      (o.result, disk.store (.file a place) o.database) := by
  have hsession : (Link.file a place).session disk
      = ((Link.file a place).session disk).terms.session (disk.contentAt place) := by
    rw [← Service.database_session disk a place]
    rfl
  rw [work, Action.effect, ← hsession]
  cases action ((Link.file a place).session disk) <;> rfl

/-- Work that leaves the content as it is. -/
theorem contentAt_work {ε α : Type} {action : Action ε α} (disk : Disk) (a : Address)
    (hplace : place ≠ []) (hp : ¬ IsBeside place p) (hkept : ∀ w db, (action.effect w db).database = db) :
    (disk.work (.file a place) action).2.contentAt p = disk.contentAt p := by
  rw [work_file]
  dsimp only
  rw [hkept, contentAt_store hplace hp]
  split
  · rename_i heq
    rw [heq]
  · rfl

theorem claim_database (w : Terms) (db : Database) : (Action.claim.effect w db).database = db := by
  rw [Action.effect_claim]
  split <;> rfl

/-- To keep a log is no change of content. -/
theorem contentAt_startLog (disk : Disk) (a : Address) (hplace : place ≠ []) (hp : ¬ IsBeside place p) :
    (disk.startLog (.file a place)).2.contentAt p = disk.contentAt p := by
  have hclaim := contentAt_work disk a hplace hp claim_database
  unfold startLog
  dsimp only
  split
  · rfl
  · rcases hwork : disk.work (.file a place) Action.claim with ⟨fault | ⟨⟩, disk'⟩
    · rw [hwork] at hclaim
      exact hclaim
    · rw [hwork] at hclaim
      rw [← hclaim]
      exact contentAt_put rfl p

end Disk

namespace Opening

open Database

variable {disk opened : Disk} {path : String} {wait : Nat} {a : Address} {place p : Place}

/-- A database is prepared by migrating its content, or not at all. -/
theorem prepare_cases (opened : Disk) (a : Address) (hplace : place ≠ []) :
    (∃ db, (opened.contentAt place).migrate = .ok db ∧ (prepare opened (.file a place)).1 = .ok () ∧
      ∀ p, ¬ Disk.IsBeside place p → (prepare opened (.file a place)).2.contentAt p
        = if p = place then db else opened.contentAt p) ∨
    ∃ e, (prepare opened (.file a place)).1 = .error e ∧
      ∀ p, ¬ Disk.IsBeside place p →
        (prepare opened (.file a place)).2.contentAt p = opened.contentAt p := by
  have hlog (p : Place) (hp : ¬ Disk.IsBeside place p) :=
    Disk.contentAt_startLog opened a hplace hp
  rw [prepare]
  rcases hstart : opened.startLog (.file a place) with ⟨fault | ⟨⟩, disk⟩
  · rw [hstart] at hlog
    exact .inr ⟨_, rfl, hlog⟩
  · rw [hstart] at hlog
    have hcontent : disk.contentAt place = opened.contentAt place :=
      hlog place (Disk.not_isBeside_self place)
    dsimp only
    rw [Disk.work_file, hcontent]
    rcases migration_cases ((Link.file a place).session disk).terms (opened.contentAt place) with
      ⟨db, hmigrate, heffect⟩ | ⟨e, heffect⟩
    · refine .inl ⟨db, hmigrate, by rw [heffect], fun p hp => ?_⟩
      rw [heffect, Disk.contentAt_store hplace hp, hlog p hp]
    · refine .inr ⟨e, by rw [heffect], fun p hp => ?_⟩
      rw [heffect, Disk.contentAt_store hplace hp, hlog p hp]
      split
      · rename_i heq
        rw [heq]
      · rfl

/-- Whoever connects by the path does not take what stands at the place for the log of another database
or for its memory. -/
def Apart (disk : Disk) (path : String) (place : Place) : Prop :=
  ∀ a other opened, disk.connect path = .ok (.file a other, opened) → ¬ Disk.IsBeside other place

theorem apart_of_connect (hc : disk.connect path = .ok (.file a place, opened)) :
    Apart disk path place := by
  intro a' other opened' hc'
  rw [hc] at hc'
  cases hc'
  exact Disk.not_isBeside_self place

/-- A connection to a database of its own is prepared without a look at the disk. -/
theorem prepare_own (readOnly : Bool) : (prepare opened (.own readOnly)).2 = opened := by
  rw [prepare, Disk.startLog]
  dsimp only [Disk.work]
  split <;> rfl

/-- An opening that connects panics before anything is prepared, or goes as the preparation goes. -/
theorem file_of_connect {link : Link} (hc : disk.connect path = .ok (link, opened)) (wait : Nat) :
    (file disk path wait).result =
        (if longestWait < wait then .error .panicked else (prepare opened link).1.mapError .failed) ∧
      (file disk path wait).disk =
        (if longestWait < wait then opened else (prepare opened link).2).close link := by
  rw [file, hc]
  dsimp only
  split
  · exact ⟨rfl, rfl⟩
  · rcases prepare opened link with ⟨e | ⟨⟩, after⟩ <;> exact ⟨rfl, rfl⟩

/-- **An opening that succeeds has migrated the content, and one that does not has left it alone**,
whatever has gone wrong. -/
theorem opening_cases (hc : disk.connect path = .ok (.file a place, opened)) (wait : Nat) :
    ((file disk path wait).result = .ok () ∧
      (disk.contentAt place).migrate = .ok ((file disk path wait).disk.contentAt place)) ∨
    ((file disk path wait).result ≠ .ok () ∧
      (file disk path wait).disk.contentAt place = disk.contentAt place) := by
  obtain ⟨hresult, hdisk⟩ := file_of_connect hc wait
  have hself := Disk.not_isBeside_self place
  rw [hresult, hdisk, Disk.contentAt_close, ← Disk.contentAt_connect hc place]
  by_cases hwait : longestWait < wait
  · rw [if_pos hwait, if_pos hwait]
    exact .inr ⟨nofun, rfl⟩
  · rw [if_neg hwait, if_neg hwait]
    rcases prepare_cases opened a (Disk.place_ne_root hc) with
      ⟨db, hmigrate, hok, hcontent⟩ | ⟨e, herror, hcontent⟩
    · refine .inl ⟨by rw [hok]; rfl, ?_⟩
      rw [hcontent place hself, if_pos rfl, hmigrate]
    · exact .inr ⟨by rw [herror]; exact nofun, hcontent place hself⟩

/-- Content that migration refuses is not opened. -/
theorem refused_of_migrate_error (hc : disk.connect path = .ok (.file a place, opened)) (wait : Nat)
    {e : DatabaseError} (hmigrate : (disk.contentAt place).migrate = .error e) :
    (file disk path wait).result ≠ .ok () ∧
      (file disk path wait).disk.contentAt place = disk.contentAt place := by
  rcases opening_cases hc wait with ⟨-, hok⟩ | hfailed
  · rw [hmigrate] at hok
    cases hok
  · exact hfailed

/-- Settled content stays as it is, opened or not. -/
theorem content_of_settled (hc : disk.connect path = .ok (.file a place, opened)) (wait : Nat)
    (hsettled : (disk.contentAt place).Settled) :
    (file disk path wait).disk.contentAt place = disk.contentAt place := by
  rcases opening_cases hc wait with ⟨-, hok⟩ | ⟨-, hsame⟩
  · exact hsettled _ hok
  · exact hsame

/-- Older content is upgraded by an opening that succeeds. -/
theorem upgrade_or_refused (hc : disk.connect path = .ok (.file a place, opened)) (wait : Nat)
    (hcounted : 0 ≤ (disk.contentAt place).schemaVersion)
    (holder : (disk.contentAt place).schemaVersion < latestSchema) :
    (file disk path wait).result = .ok () ∧
        (disk.contentAt place).Upgrade ((file disk path wait).disk.contentAt place) ∨
      (file disk path wait).result ≠ .ok () ∧
        (file disk path wait).disk.contentAt place = disk.contentAt place := by
  rcases opening_cases hc wait with ⟨hok, hmigrate⟩ | hfailed
  · rw [migrate_of_older hcounted holder] at hmigrate
    rw [← Except.ok.inj hmigrate]
    exact .inl ⟨hok, upgrade_upgraded _⟩
  · exact .inr hfailed

/-- What has been opened is settled, and so is what its version keeps from being upgraded. -/
theorem settled_after (hc : disk.connect path = .ok (.file a place, opened)) (wait : Nat)
    (hdone : (file disk path wait).result = .ok () ∨ (disk.contentAt place).schemaVersion < 0 ∨
      latestSchema ≤ (disk.contentAt place).schemaVersion) :
    ((file disk path wait).disk.contentAt place).Settled := by
  rcases hdone with hok | hversion
  · rcases opening_cases hc wait with ⟨-, hmigrate⟩ | ⟨hfailed, -⟩
    · exact settled_of_migrate hmigrate
    · exact absurd hok hfailed
  · have hsettled := settled_iff.mpr hversion
    rw [content_of_settled hc wait hsettled]
    exact hsettled

/-- Seen from any place, an opening migrates the content or leaves it alone. -/
theorem content_of_opening (hapart : Apart disk path p) (wait : Nat) :
    (file disk path wait).disk.contentAt p = disk.contentAt p ∨
      (disk.contentAt p).migrate = .ok ((file disk path wait).disk.contentAt p) := by
  cases hc : disk.connect path with
  | error fault =>
      rw [file, hc]
      exact .inl rfl
  | ok linked =>
      obtain ⟨link, opened⟩ := linked
      rw [(file_of_connect hc wait).2, Disk.contentAt_close, ← Disk.contentAt_connect hc p]
      by_cases hwait : longestWait < wait
      · rw [if_pos hwait]
        exact .inl rfl
      · rw [if_neg hwait]
        cases link with
        | own readOnly =>
            rw [prepare_own]
            exact .inl rfl
        | file a place =>
            have hp := hapart a place opened hc
            rcases prepare_cases opened a (Disk.place_ne_root hc) with
              ⟨db, hmigrate, -, hcontent⟩ | ⟨e, -, hcontent⟩
            · rw [hcontent p hp]
              split
              · rename_i heq
                rw [heq]
                exact .inr hmigrate
              · exact .inl rfl
            · exact .inl (hcontent p hp)

end Opening

/-! ### Openings that nothing is in the way of -/

/-- Nothing is in the way of an opening that has connected: the file can be read and written, the log
that is to be kept can be followed, and the wait can be counted. -/
structure Opening.Unhindered (wait : Nat) (a : Address) (place : Place) (opened : Disk) : Prop where
  counted : wait ≤ longestWait
  free : ((Link.file a place).session opened).terms = .free
  memory : a.ignoresLocks = true ∨ a.borrowsMemory opened place = false

namespace Disk

variable {disk : Disk} {a : Address} {place : Place}

/-- A connection on free terms finds no fault and no obstacle. -/
theorem terms_free_iff : ((Link.file a place).session disk).terms = .free ↔
    let entry := (disk.entry? place).getD (.text "")
    Link.lockFault? disk a place = none ∧ Link.leftoverFault? disk a place entry = none ∧
      Link.contentFault? disk a place entry = none ∧
      Link.obstacle? disk a place (disk.databaseAt place) = none := by
  have hkept : (Link.held? ((disk.entry? place).getD (.text ""))).getD { content := .blank }
      = disk.databaseAt place := by
    rw [databaseAt]
    cases disk.entry? place <;> rfl
  simp only [Link.session, Session.terms, Terms.free, Terms.mk.injEq, hkept, Option.orElse_eq_none,
    and_assoc]

theorem obstacle?_eq_none_iff {kept : DatabaseFile} : Link.obstacle? disk a place kept = none ↔
    a.isReadOnly = false ∧ (kept.locked && !a.ignoresLocks) = false ∧
      (kept.logged && !a.ignoresLocks && a.borrowsMemory disk place) = false ∧
      (isMisnamed (beside place journalEnding) || disk.isDirectory (beside place journalEnding)) = false := by
  dsimp only [Link.obstacle?]
  simp only [← Bool.not_eq_true]
  split_ifs with hread hlock hmemory hjournal
  · exact iff_of_false nofun fun h => h.1 hread
  · exact iff_of_false nofun fun h => h.2.1 hlock
  · exact iff_of_false nofun fun h => h.2.2.1 hmemory
  · exact iff_of_false nofun fun h => h.2.2.2 hjournal
  · exact iff_of_true rfl ⟨hread, hlock, hmemory, hjournal⟩

/-- Nothing that was left beside a file is in the way if no directory has the name of its journal or of its
log. -/
theorem leftoverFault?_eq_none {entry : Entry}
    (hjournal : disk.isDirectory (beside place journalEnding) = false)
    (hlog : a.immutable = true ∨ disk.isDirectory (beside place logEnding) = false) :
    Link.leftoverFault? disk a place entry = none := by
  dsimp only [Link.leftoverFault?]
  rw [hjournal, Bool.and_false]
  rcases hlog with himmutable | hlog
  · rw [if_pos himmutable]
  · simp [hlog]

theorem no_log_directory {entry : Entry} (h : Link.leftoverFault? disk a place entry = none) :
    a.immutable = true ∨ disk.isDirectory (beside place logEnding) = false := by
  dsimp only [Link.leftoverFault?] at h
  split_ifs at h with himmutable hjournal hlog
  · exact .inl himmutable
  · exact .inr (by simpa using hlog)

/-- What a connection to a file that keeps no log yet can do it can still do once the file keeps one, if
it can make the memory to follow it. -/
theorem terms_logged (hplace : place ≠ []) (hfree : ((Link.file a place).session disk).terms = .free)
    (hlocks : a.ignoresLocks = false) (hmemory : a.borrowsMemory disk place = false) :
    ((Link.file a place).session
      (disk.put place (.database { disk.databaseAt place with logged := true }))).terms = .free := by
  obtain ⟨hlock, hleftover, -, hobstacle⟩ := terms_free_iff.mp hfree
  obtain ⟨hread, hlocked, -, hjournal⟩ := obstacle?_eq_none_iff.mp hobstacle
  have hlog := no_log_directory hleftover
  generalize hfile : { disk.databaseAt place with logged := true } = file
  generalize hput : disk.put place (.database file) = disk'
  have hentry : disk'.entry? place = some (.database file) := by
    rw [← hput, lookup_put, if_pos ⟨hplace, rfl⟩]
  have hat : disk'.databaseAt place = file := by
    rw [databaseAt, hentry]
    rfl
  -- The file is the only entry that is another one.
  have hbeside (ending : EntryName) (he : ending ≠ []) :
      disk'.entry? (beside place ending) = disk.entry? (beside place ending) := by
    rw [← hput, lookup_put, if_neg fun h => beside_ne place he h.2]
  have hdirectory (ending : EntryName) (he : ending ≠ []) :
      disk'.isDirectory (beside place ending) = disk.isDirectory (beside place ending) := by
    rw [isDirectory, isDirectory, hbeside ending he]
  have hborrows : a.borrowsMemory disk' place = false := by
    rw [Address.borrowsMemory, hdirectory memoryEnding (by decide)]
    exact hmemory
  refine terms_free_iff.mpr ⟨?_, ?_, ?_, ?_⟩
  · rw [← hlock, Link.lockFault?, Link.lockFault?, hbeside lockEnding (by decide)]
  · refine leftoverFault?_eq_none ?_ ?_
    · rw [hdirectory journalEnding (by decide)]
      exact (Bool.or_eq_false_iff.mp hjournal).2
    · rw [hdirectory logEnding (by decide)]
      exact hlog
  · rw [hentry]
    simp [Link.contentFault?, Link.held?, Address.followsLog, hlocks, hborrows]
  · rw [hat, obstacle?_eq_none_iff, hdirectory journalEnding (by decide), hborrows, Bool.and_false]
    have hsame : file.locked = (disk.databaseAt place).locked := by rw [← hfile]
    exact ⟨hread, hsame ▸ hlocked, rfl, hjournal⟩

theorem claim_free (db : Database) : Action.claim.effect .free db = ⟨.ok (), db⟩ :=
  Action.effect_claim .free db

theorem startLog_of_free (hplace : place ≠ []) (hfree : ((Link.file a place).session disk).terms = .free)
    (hmemory : a.ignoresLocks = true ∨ a.borrowsMemory disk place = false) :
    ∃ disk', disk.startLog (.file a place) = (.ok (), disk') ∧
      ((Link.file a place).session disk').terms = .free := by
  by_cases hskip : (a.ignoresLocks || (disk.databaseAt place).logged) = true
  · refine ⟨disk, ?_, hfree⟩
    rw [startLog]
    exact if_pos hskip
  · simp only [Bool.or_eq_true, not_or, Bool.not_eq_true] at hskip
    have hkeep : disk.store (.file a place) (disk.contentAt place) = disk := by
      have hkeep : disk.keep place (disk.contentAt place) = disk := if_pos rfl
      rw [store, hkeep, hskip.2]
      rfl
    have hwork : disk.work (.file a place) Action.claim = (.ok (), disk) := by
      rw [work_file, hfree, claim_free]
      exact congrArg _ hkeep
    refine ⟨_, ?_, terms_logged hplace hfree hskip.1 (hmemory.resolve_left (by simp [hskip.1]))⟩
    rw [startLog]
    dsimp only
    rw [if_neg (by simp [hskip]), hwork]

end Disk

namespace Opening

open Database

variable {disk opened : Disk} {path : String} {wait : Nat} {a : Address} {place : Place}

/-- **Nothing but the content decides how an unhindered opening ends.** -/
theorem result_of_unhindered (hc : disk.connect path = .ok (.file a place, opened))
    (h : Unhindered wait a place opened) :
    (file disk path wait).result = match (disk.contentAt place).migrate with
      | .ok _ => .ok ()
      | .error e => .error (.failed e) := by
  have hplace := Disk.place_ne_root hc
  obtain ⟨logging, hstart, hfree⟩ := Disk.startLog_of_free hplace h.free h.memory
  have hcontent : logging.contentAt place = disk.contentAt place := by
    have hlog := Disk.contentAt_startLog opened a hplace (Disk.not_isBeside_self place)
    rw [hstart] at hlog
    exact hlog.trans (Disk.contentAt_connect hc place)
  have hprepare : (prepare opened (.file a place)).1
      = (migration.effect .free (disk.contentAt place)).result := by
    rw [prepare, hstart]
    dsimp only
    rw [Disk.work_file, hfree, hcontent]
  rw [(file_of_connect hc wait).1, if_neg (not_lt.mpr h.counted), hprepare, migration_free]
  cases (disk.contentAt place).migrate <;> rfl

end Opening

/-! ### Openings one after another -/

/-- What happens to a disk: somebody opens a database on it, or the content at this place is changed by
somebody, who leaves its schema version as it is. -/
inductive Opening.History (place : Place) (disk : Disk) : List (Database → Database) → Disk → Prop
  | nil : History place disk [] disk
  | opening {changes : List (Database → Database)} {disk' : Disk} (path : String) (wait : Nat)
      (hapart : Apart disk' path place) (h : History place disk changes disk') :
      History place disk changes (file disk' path wait).disk
  | change {changes : List (Database → Database)} {disk' disk'' : Disk} (f : Database → Database)
      (hversion : ∀ db, (f db).schemaVersion = db.schemaVersion)
      (hcontent : disk''.contentAt place = f (disk'.contentAt place))
      (h : History place disk changes disk') : History place disk (changes ++ [f]) disk''

namespace Opening

open Database

variable {disk disk' : Disk} {place : Place} {changes : List (Database → Database)}

/-- **The openings of settled content come to nothing.** -/
theorem History.of_settled (h : History place disk changes disk')
    (hsettled : (disk.contentAt place).Settled) :
    disk'.contentAt place = changes.foldl (fun db f => f db) (disk.contentAt place) ∧
      (disk'.contentAt place).schemaVersion = (disk.contentAt place).schemaVersion := by
  induction h with
  | nil => exact ⟨rfl, rfl⟩
  | @opening changes disk' path wait hapart h ih =>
      obtain ⟨hcontent, hversion⟩ := ih
      have hsame : (file disk' path wait).disk.contentAt place = disk'.contentAt place := by
        rcases content_of_opening hapart wait with hsame | hmigrate
        · exact hsame
        · refine (settled_iff.mpr ?_) _ hmigrate
          rw [hversion]
          exact settled_iff.mp hsettled
      rw [hsame]
      exact ⟨hcontent, hversion⟩
  | change f hf hcontent h ih =>
      rw [hcontent, hf, ih.2, List.foldl_append, ih.1]
      exact ⟨rfl, rfl⟩

/-- A call of a store on the database is such a change. -/
theorem History.call {h : Host} {a : Address} {w : Terms} {db : Database}
    (hist : History place disk changes h.disk) (hc : Service.Connects h (some (.file a place)) w db)
    (hopen : h.service.gate.isOpen) (c : Call) :
    History place disk (changes ++ [fun db => (c.program.effect w db).database])
      (h.after (.call c)).disk := by
  obtain ⟨h', hcall, hcontent⟩ := Service.call_effect c hc hopen
  refine .change _ (fun db => (Call.keepsFrame_program c).effect w db |>.schemaVersion) ?_ hist
  have hbefore : h.disk.contentAt place = db := hc.content_eq
  rw [Host.after, hcall, leftBy_ended, hbefore]
  exact hcontent

/-- **Opening a database is safe.**  A version that is negative or newer than the newest known is never
opened, and its content stays.  Content of the newest version stays, too.  Older content is brought to
the newest version, which adds the missing tables and nothing else, or it stays.  Which of these it is
goes by the version alone where nothing is in the way.

Once the content is settled, further openings change it no more. -/
theorem opening_migrates {opened : Disk} {path : String} {a : Address}
    (hc : disk.connect path = .ok (.file a place, opened)) (wait : Nat) :
    let before := disk.contentAt place
    let result := (file disk path wait).result
    let after := (file disk path wait).disk.contentAt place
    (before.schemaVersion < 0 ∨ latestSchema < before.schemaVersion →
      result ≠ .ok () ∧ after = before) ∧
    (before.schemaVersion = latestSchema → after = before) ∧
    (0 ≤ before.schemaVersion → before.schemaVersion < latestSchema →
      result = .ok () ∧ before.Upgrade after ∨ result ≠ .ok () ∧ after = before) ∧
    (Unhindered wait a place opened →
      (latestSchema < before.schemaVersion →
        result = .error (.failed (.unsupportedSchema before.schemaVersion))) ∧
      (before.schemaVersion < 0 → result = .error (.failed (.storage .outOfRange))) ∧
      (0 ≤ before.schemaVersion → before.schemaVersion ≤ latestSchema → result = .ok ())) ∧
    (result = .ok () ∨ before.schemaVersion < 0 ∨ latestSchema ≤ before.schemaVersion →
      ∀ changes later, History place (file disk path wait).disk changes later →
        later.contentAt place = changes.foldl (fun db f => f db) after ∧
          (later.contentAt place).schemaVersion = after.schemaVersion) := by
  intro before result after
  refine ⟨?_, ?_, upgrade_or_refused hc wait, fun hfree => ?_, fun hdone changes later hhistory => ?_⟩
  · rintro (hnegative | hnewer)
    · exact refused_of_migrate_error hc wait (migrate_of_negative hnegative)
    · exact refused_of_migrate_error hc wait (migrate_of_newer hnewer)
  · intro hlatest
    exact content_of_settled hc wait (settled_iff.mpr (.inr hlatest.ge))
  · have hresult : result = match before.migrate with
        | .ok _ => .ok ()
        | .error e => .error (.failed e) := result_of_unhindered hc hfree
    refine ⟨fun hnewer => ?_, fun hnegative => ?_, fun hcounted hknown => ?_⟩
    · rw [hresult, migrate_of_newer hnewer]
    · rw [hresult, migrate_of_negative hnegative]
    · rcases hknown.lt_or_eq with holder | hlatest
      · rw [hresult, migrate_of_older hcounted holder]
      · rw [hresult, migrate_of_latest hlatest]
  · exact hhistory.of_settled (settled_after hc wait hdone)

/-- A database that was given one of its tables by somebody, with a row in it. -/
def halfMade : Disk := Disk.put { entries := .empty } [Text.octets "a.db"]
  (.database { content := Database.blank.setTable .user (SortedMap.empty.insert ["ada"] ⟨7, "scribble"⟩) })

/-- Opening it adds the other tables and keeps the row, and opening it again changes nothing. -/
theorem opening_migrates_half_made :
    let place := [Text.octets "a.db"]
    let once := (file halfMade "a.db" 5000).disk
    (file halfMade "a.db" 5000).result = .ok () ∧
      (halfMade.contentAt place).Upgrade (once.contentAt place) ∧
      (once.contentAt place).row? .user ["ada"] = some ⟨7, "scribble"⟩ ∧
      (file once "a.db" 5000).disk.contentAt place = once.contentAt place := by
  intro place once
  have hc : halfMade.connect "a.db" = .ok (.file { path := Path.ofText "a.db" } place, halfMade) := rfl
  have hfree : Unhindered 5000 { path := Path.ofText "a.db" } place halfMade :=
    ⟨by decide, rfl, .inr rfl⟩
  obtain ⟨-, -, holder, hunhindered, hagain⟩ := opening_migrates hc 5000
  have hok := (hunhindered hfree).2.2 (by decide) (by decide)
  have hupgrade := (holder (by decide) (by decide)).resolve_right fun h => h.1 hok
  refine ⟨hok, hupgrade.2, ?_, ?_⟩
  · rw [row?, hupgrade.2.tables]
    rfl
  · have hc' : once.connect "a.db" = .ok (.file { path := Path.ofText "a.db" } place, once) := rfl
    exact (hagain (.inl hok) [] _ (.opening "a.db" 5000 (apart_of_connect hc') .nil)).1

end Opening

end AccessStore
