/-
Versions count writes.

What operations commit is known from `Commits`, and it is said here of whole runs: of calls and of
operations through handles of any age, of registrations whose hooks succeed, fail or panic, and
of starts, through any number of stores that come and go.  A hook that does not succeed is rolled
back, so it commits nothing of what it has added; a start commits what the hooks of those kinds
have added that it was the first to register.  `Logged.logs` goes through a run step by step.

The versions that clients are told come from the same place.  An addition answers the first
version, and an overwriting one that whoever reads then is shown.
-/
import AccessStore.Proofs.Footprints
import AccessStore.Proofs.UserCalls

namespace AccessStore

/-! ### Registering and starting -/

/-- Records that are added one after another are inserted one after another. -/
theorem Hook.logs_addAll {records : List Record} {w : Terms} {db db' : Database}
    (hok : (addAll records).effect w db = ⟨.ok (), db'⟩) : Logs db db' (.insertions records) := by
  induction records generalizing db with
  | nil => exact .of_database rfl hok
  | cons r rest ih =>
      rw [effect_addAll_cons] at hok
      obtain ⟨v, db₁, hadd, hrest⟩ := Outcome.andThen_eq_ok.mp hok
      exact (logs_add hadd).trans (ih hrest)

theorem Hook.logs_run {hook : Hook} {w : Terms} {db db' : Database}
    (hok : hook.run.effect w db = ⟨.ok (), db'⟩) : Logs db db' (.insertions hook.additions) := by
  rw [effect_run] at hok
  obtain ⟨_, db₁, hadded, hfinish⟩ := Outcome.andThen_eq_ok.mp hok
  have hend := database_finish hook w db₁
  rw [hfinish] at hend
  obtain rfl : db' = db₁ := hend
  exact logs_addAll (Outcome.mapError_eq_ok.mp hadded)

namespace Registration

/-- What registering a kind with this hook has committed to records. -/
def commits {ε : Type} (hook : Hook) : Except ε Bool → Commits
  | .ok first => .firstUse first hook.additions
  | .error _ => .none

variable {s : Session}

/-- A hook that does not succeed is rolled back with all that it has added. -/
theorem logs_prepare (kind : Kind) (hook : Hook) (w : Terms) (db : Database) :
    Logs db ((prepare kind hook).effect w db).database
      (commits hook ((prepare kind hook).effect w db).result) := by
  rw [effect_prepare]
  cases w.barrier? with
  | some fault => exact .refl db
  | none =>
      cases w.markFault? db with
      | some fault => exact .refl db
      | none =>
          by_cases hmarked : db.isMarked kind
          · simp only [if_pos hmarked]
            exact .refl db
          · simp only [if_neg hmarked]
            rcases ho : hook.run.effect w (db.mark kind) with ⟨result, db'⟩
            cases result with
            | ok _ =>
                have hmark := (Logs.mark db kind).trans (Hook.logs_run ho)
                rwa [Commits.none_andThen] at hmark
            | error stop => exact .refl db

/-- A store registers a kind in its session outside of any transaction. -/
theorem logs_register (registration : Registration) (kind : Kind) (hook : Hook)
    (hs : s.transaction = none) :
    (registration.register kind hook s).session.transaction = none ∧
      Logs s.database (registration.register kind hook s).session.database
        (commits hook (registration.register kind hook s).result) := by
  cases registration with
  | fresh =>
      obtain ⟨told, ran, hregister⟩ := register_fresh kind hook hs
      have hlogs := logs_prepare kind hook s.terms s.database
      rw [hregister]
      generalize (prepare kind hook).effect s.terms s.database = o at hlogs
      obtain ⟨result, db'⟩ := o
      refine ⟨by simp [Session.onward, Session.setView, hs], ?_⟩
      have hdb : (s.onward db' told).database = db' := by simp [Session.onward, Session.setView, hs]
      show Logs s.database (s.onward db' told).database _
      rw [hdb]
      cases result <;> exact hlogs
  | ready => exact ⟨hs, .refl _⟩
  | failed => exact ⟨hs, .refl _⟩

end Registration

namespace Seeding

variable {d : Defaults}

/-- What seeding a kind has committed to records. -/
def commitsOfKind (d : Defaults) (kind : Kind) : Except (Stop CallError) KindReport → Commits
  | .ok report => .firstUse report.firstUse (d.records kind)
  | .error _ => .none

/-- What seeding these kinds in order commits to records; the first one that fails ends it. -/
def commits (d : Defaults) : List Kind → Stage → Commits
  | [], _ => .none
  | kind :: rest, stage =>
      match seedKind d kind stage with
      | .ok report stage => (commitsOfKind d kind (.ok report)).andThen (commits d rest stage)
      | .error _ _ => .none

theorem logs_seedKind (d : Defaults) (kind : Kind) (stage : Stage)
    (hs : stage.session.transaction = none) :
    ∃ result stage', seedKind d kind stage = ended result stage' ∧
      stage'.session.transaction = none ∧
      Logs stage.session.database stage'.session.database (commitsOfKind d kind result) := by
  obtain ⟨hs', hlogs⟩ := Registration.logs_register (stage.registrations.get kind) kind
    (hook kind (d.records kind)) hs
  simp only [seedKind]
  generalize (stage.registrations.get kind).register kind (hook kind (d.records kind)) stage.session
    = attempt at hs' hlogs
  obtain ⟨result, ran, registration, session⟩ := attempt
  cases result with
  | ok first =>
      let report : KindReport := ⟨kind, first, if first then (d.records kind).length else 0⟩
      exact ⟨.ok report, ⟨_, session⟩, rfl, hs', hlogs⟩
  | error stop => exact ⟨.error (stop.map (.seeding kind)), ⟨_, session⟩, rfl, hs', hlogs⟩

theorem logs_seedKinds (kinds : List Kind) (stage : Stage) (hs : stage.session.transaction = none) :
    ∃ result stage', seedKinds d kinds stage = ended result stage' ∧
      Logs stage.session.database stage'.session.database (commits d kinds stage) := by
  induction kinds generalizing stage with
  | nil => exact ⟨.ok [], stage, rfl, .refl _⟩
  | cons kind rest ih =>
      obtain ⟨result, stage₁, hseed, hs₁, hkind⟩ := logs_seedKind d kind stage hs
      rw [seedKinds_cons, commits, hseed]
      cases result with
      | error stop => exact ⟨.error stop, stage₁, rfl, hkind⟩
      | ok report =>
          obtain ⟨result, stage₂, hrest, hlogs⟩ := ih stage₁ hs₁
          simp only [ended, hrest]
          cases result with
          | error stop => exact ⟨.error stop, stage₂, rfl, hkind.trans hlogs⟩
          | ok reports => exact ⟨.ok (report :: reports), stage₂, rfl, hkind.trans hlogs⟩

end Seeding

namespace Service

variable {h : Host} {link : Option Link} {w : Terms} {db : Database}

/-- What starting a store commits to records, on a connection with these terms to this content. -/
def startCommits (h : Host) (w : Terms) (db : Database) : Commits :=
  if h.service.gate.isOpen then .none
  else Seeding.commits h.service.defaults Kind.all ⟨h.service.registrations, w.session db⟩

theorem logs_start (hc : Connects h link w db) (hblank : db ≠ .blank) :
    Logs db (content (h.after .start) link) (startCommits h w db) := by
  unfold startCommits
  by_cases hopen : h.service.gate.isOpen
  · obtain ⟨h', hstart, hcontent⟩ := start_of_open hopen link
    rw [if_pos hopen, Host.after, hstart]
    exact .of_eq (hcontent.trans hc.content_eq)
  · obtain ⟨result, stage, hseed, hlogs⟩ := Seeding.logs_seedKinds (d := h.service.defaults) Kind.all
      ⟨h.service.registrations, w.session db⟩ rfl
    obtain ⟨h', hstart, hcontent, -⟩ := start_of_closed (by simpa using hopen) hc hblank hseed
    rw [if_neg hopen, Host.after, hstart, leftBy_ended, hcontent]
    exact hlogs

end Service

/-! ### Runs -/

/-- The databases that come of a run on a fresh one, with what was committed on the way.  Every step is one
of any store in any state, so stores may come and go and take turns; a store that does not connect to this
database does nothing to it. -/
inductive Database.Logged : Commits → Database → Prop
  /-- A fresh database that was opened. -/
  | fresh {db : Database} (h : Database.blank.migrate = .ok db) : Logged .none db
  /-- One that was opened again. -/
  | opened {log : Commits} {db db' : Database} (hr : Logged log db) (h : db.migrate = .ok db') :
      Logged log db'
  /-- Somebody worked on it, on whatever terms and with a handle of any age.  A call that others came in
  between of counts as work for each of its statements. -/
  | worked {log : Commits} {db : Database} (hr : Logged log db) (w : Terms) (d : Deed) :
      Logged (log.andThen (d.commitsOn w db)) (d.effect w db).database
  /-- A kind was registered with a hook, by a store that had done so before or not. -/
  | registered {log : Commits} {db : Database} (hr : Logged log db) (w : Terms)
      (registration : Registration) (kind : Kind) (hook : Hook) :
      Logged
        (log.andThen
          (Registration.commits hook (registration.register kind hook (w.session db)).result))
        (registration.register kind hook (w.session db)).session.database
  /-- A store was started. -/
  | started {log : Commits} {db : Database} {h : Host} {link : Option Link} {w : Terms}
      (hr : Logged log db) (hc : Service.Connects h link w db) :
      Logged (log.andThen (Service.startCommits h w db)) (Service.content (h.after .start) link)
  /-- A store was stopped. -/
  | stopped {log : Commits} {db : Database} {h : Host} {link : Option Link} {w : Terms}
      (hr : Logged log db) (hc : Service.Connects h link w db) :
      Logged log (Service.content (h.after .stop) link)
  /-- A call was made of a store. -/
  | called {log : Commits} {db : Database} {h h' : Host} {link : Option Link} {w : Terms} {c : Call}
      {result : Except CallError Answer} (hr : Logged log db) (hc : Service.Connects h link w db)
      (hcall : Service.call c h = ended result h') :
      Logged (log.andThen (c.commitsOf result db)) (Service.content h' link)

namespace Database

variable {log : Commits} {db db' : Database} {r : Record} {v : Version}

/-- **A run turns versions by what it commits.** -/
theorem Logged.logs (hr : db.Logged log) : db.IsMigrated ∧ Logs .migrated db log := by
  have hnext {log cs : Commits} {db db' : Database} (h : db.IsMigrated ∧ Logs .migrated db log)
      (hstep : Logs db db' cs) : db'.IsMigrated ∧ Logs .migrated db' (log.andThen cs) :=
    ⟨hstep.migrated h.1, h.2.trans hstep⟩
  induction hr with
  | fresh h =>
      rw [← Except.ok.inj h]
      exact ⟨isMigrated_migrated, .refl _⟩
  | opened _ h ih =>
      rw [ih.1.migrate_eq] at h
      rwa [← Except.ok.inj h]
  | worked _ w d ih => exact hnext ih (d.logs_effect w _)
  | @registered log db _ w registration kind hook ih =>
      exact hnext ih (registration.logs_register (s := w.session db) kind hook rfl).2
  | started _ hc ih => exact hnext ih (Service.logs_start hc ih.1.ne_blank)
  | stopped _ hc ih => rwa [Service.content_after_stop, hc.content_eq]
  | @called log db h h' link w c result _ hc hcall ih =>
      rcases Called.step_cases hc ih.1.ne_blank hcall with ⟨rfl, hcontent⟩ | ⟨rfl, hcontent⟩
      · rw [hcontent]
        exact ih
      · rw [hcontent]
        exact hnext ih (c.logs_program w db)

/-- The versions in a database are those that the log makes them. -/
structure Counted (log : Commits) (db : Database) : Prop where
  /-- The version of a record is one and the number of times it was overwritten since it was last
  inserted. -/
  present : ∀ kind key row, db.row? kind key = some row →
    ∃ n earlier, log kind key = List.replicate n .overwritten ++ .inserted :: earlier ∧
      row.version = 1 + (n : Int)
  /-- A record that is not there was never inserted or was removed last. -/
  absent : ∀ kind key, db.row? kind key = none →
    log kind key = [] ∨ ∃ earlier, log kind key = .removed :: earlier

theorem Logged.counted (hr : db.Logged log) : db.Counted log := by
  have hturns (kind : Kind) (key : Key) :
      Commit.Turns none (log kind key) (db.version? kind key) := by
    have h := hr.logs.2.turns kind key
    rwa [show version? .migrated kind key = none by cases kind <;> rfl] at h
  refine ⟨?_, ?_⟩
  · intro kind key row hrow
    have h := hturns kind key
    rw [version?_of_row? hrow] at h
    exact h.count
  · intro kind key hrow
    have h := hturns kind key
    rw [version?_of_no_row hrow] at h
    exact h.absent

/-- Reading the key of the record gives the record at this version, on all terms that let it be read. -/
def Yields (db : Database) (r : Record) (v : Version) : Prop :=
  ∀ w : Terms, w.readFault? db r.kind = none →
    (Records.read r.kind r.key).effect w db = ⟨.ok (some (r.withVersion (some v))), db⟩

theorem Logged.yields (hr : db.Logged log)
    (hrow : db.row? r.kind r.key = some ⟨v.number, Records.payload r⟩) : db.Yields r v := by
  obtain ⟨n, -, -, hv⟩ := hr.counted.present _ _ _ hrow
  intro w hread
  exact Records.read_of_row? (show 1 ≤ v.number by simp only at hv; omega) hread hrow

end Database

/-! ### Answers -/

namespace Call

variable {c : Call} {r : Record} {w : Terms} {db db' : Database} {answer : Answer}

/-- A record that was added is there at the version that was answered, the first one. -/
theorem row?_of_added (hr : c.added? = some r) (hok : c.program.effect w db = ⟨.ok answer, db'⟩) :
    answer = .version ⟨1⟩ ∧ db'.row? r.kind r.key = some ⟨1, Records.payload r⟩ := by
  cases c with
  | addUser user roles =>
      cases hr
      obtain ⟨v, hv, rfl⟩ := Program.bind_pure_ok.mp hok
      obtain ⟨db₁, v', huser, hmapping⟩ :=
        addUserWith_ok (Program.atomic_ok (plain_addUserWith user roles) hv)
      obtain ⟨rfl, ⟨t, ht⟩, -, rfl⟩ := Records.add_ok huser
      obtain ⟨-, -, -, rfl⟩ := Records.add_ok hmapping
      refine ⟨rfl, ?_⟩
      exact (Database.row?_put_ne _ _ (by simp [Record.kind])).trans (Database.row?_put_self ht _ _)
  | add r' plain =>
      cases hr
      obtain ⟨v, hv, rfl⟩ := Program.bind_pure_ok.mp hok
      obtain ⟨rfl, ⟨t, ht⟩, -, rfl⟩ := Records.add_ok (records_ok.mp hv)
      exact ⟨rfl, Database.row?_put_self ht _ _⟩
  | _ => cases hr

/-- A record that was updated is there at the version that was answered. -/
theorem row?_of_updated (hr : c.updated? = some r) (hok : c.program.effect w db = ⟨.ok answer, db'⟩) :
    ∃ v, answer = .version v ∧ db'.row? r.kind r.key = some ⟨v.number, Records.payload r⟩ := by
  cases c with
  | updateUser user roles =>
      cases hr
      obtain ⟨v, hv, rfl⟩ := Program.bind_pure_ok.mp hok
      obtain ⟨db₁, huser, hmapping⟩ :=
        updateUserWith_ok (Program.atomic_ok (plain_updateUserWith user roles) hv)
      obtain ⟨⟨t, ht⟩, row, -, -, rfl, rfl⟩ := updateRecord_ok huser
      obtain ⟨m, t', -, -, rfl⟩ := AccessStore.putMapping_ok hmapping
      refine ⟨_, rfl, ?_⟩
      exact (Database.row?_put_ne _ _ (by simp [Record.kind])).trans (Database.row?_put_self ht _ _)
  | update r' plain =>
      cases hr
      obtain ⟨v, hv, rfl⟩ := Program.bind_pure_ok.mp hok
      obtain ⟨⟨t, ht⟩, row, -, -, rfl, rfl⟩ := updateRecord_ok hv
      exact ⟨_, rfl, Database.row?_put_self ht _ _⟩
  | _ => cases hr

end Call

namespace Deed

variable {d : Deed} {r : Record} {w : Terms} {db db' : Database} {told : Told} {log : Commits}

/-- The record that is to be added. -/
def added? : Deed → Option Record
  | call c => c.added?
  | add r => some r
  | _ => none

/-- The record that is to be put in the place of another one. -/
def overwriting? : Deed → Option Record
  | call c => c.updated?
  | write _ r => some r
  | _ => none

/-- What those who add or overwrite a record are told, and what they find if they read it right after. -/
structure Answered (d : Deed) (told : Told) (db' : Database) : Prop where
  /-- Adding answers the first version. -/
  added : ∀ r, d.added? = some r → told = .answer (.version ⟨1⟩) ∧ db'.Yields r ⟨1⟩
  /-- Overwriting answers the version that is read. -/
  overwritten : ∀ r, d.overwriting? = some r →
    ∃ v, told = .answer (.version v) ∧ db'.Yields r v

theorem row?_of_added (hr : d.added? = some r) (hok : d.effect w db = ⟨.ok told, db'⟩) :
    told = .answer (.version ⟨1⟩) ∧ db'.row? r.kind r.key = some ⟨1, Records.payload r⟩ := by
  cases d with
  | call c =>
      obtain ⟨answer, hanswer, rfl⟩ := Program.bind_pure_ok.mp hok
      obtain ⟨rfl, hrow⟩ := Call.row?_of_added hr hanswer
      exact ⟨rfl, hrow⟩
  | add r' =>
      cases hr
      obtain ⟨v, hv, rfl⟩ := Program.bind_pure_ok.mp hok
      obtain ⟨rfl, ⟨t, ht⟩, -, rfl⟩ := Records.add_ok (Call.records_ok.mp hv)
      exact ⟨rfl, Database.row?_put_self ht _ _⟩
  | _ => cases hr

theorem row?_of_overwriting (hr : d.overwriting? = some r) (hok : d.effect w db = ⟨.ok told, db'⟩) :
    ∃ v, told = .answer (.version v) ∧
      db'.row? r.kind r.key = some ⟨v.number, Records.payload r⟩ := by
  cases d with
  | call c =>
      obtain ⟨answer, hanswer, rfl⟩ := Program.bind_pure_ok.mp hok
      obtain ⟨v, rfl, hrow⟩ := Call.row?_of_updated hr hanswer
      exact ⟨v, rfl, hrow⟩
  | write h r' =>
      cases hr
      obtain ⟨v, hv, rfl⟩ := Program.bind_pure_ok.mp hok
      obtain ⟨rfl, -, ⟨t, ht⟩, -, rfl⟩ := Records.write_ok (Call.records_ok.mp hv)
      exact ⟨_, rfl, Database.row?_put_self ht _ _⟩
  | _ => cases hr

theorem answered_of_ok (hlog : db.Logged log) (hok : d.effect w db = ⟨.ok told, db'⟩) :
    d.Answered told db' := by
  have hlog' := hlog.worked w d
  rw [hok] at hlog'
  refine ⟨?_, ?_⟩
  · intro r hr
    obtain ⟨htold, hrow⟩ := row?_of_added hr hok
    exact ⟨htold, hlog'.yields hrow⟩
  · intro r hr
    obtain ⟨v, htold, hrow⟩ := row?_of_overwriting hr hok
    exact ⟨v, htold, hlog'.yields hrow⟩

end Deed

/-! ### The result -/

namespace Database

variable {log : Commits} {db : Database}

/-- **Versions count writes.**  Wherever a run has come, the version of every record is one and the
number of times it was overwritten since it was last inserted.  Whatever is done next, those who add a
record are told the first version and those who overwrite one the version that is read then; and what
fails, a call on a user or a hook half done among them, has left all versions as they were. -/
theorem Logged.versions_count (hr : db.Logged log) :
    db.Counted log ∧
    (∀ (d : Deed) w told db', d.effect w db = ⟨.ok told, db'⟩ → d.Answered told db') ∧
    (∀ (d : Deed) w e db', d.effect w db = ⟨.error e, db'⟩ → db' = db) ∧
    (∀ (registration : Registration) kind hook (w : Terms),
      (registration.register kind hook (w.session db)).result ≠ .ok true →
        (registration.register kind hook (w.session db)).session.database = db) ∧
    ∀ h link w, Service.Connects h link w db → ∀ c h',
      (∀ answer, Service.call c h = .ok answer h' →
        (Deed.call c).Answered (.answer answer) (Service.content h' link)) ∧
      ∀ e, Service.call c h = .error e h' → Service.content h' link = db := by
  refine ⟨hr.counted, ?_, ?_, ?_, ?_⟩
  · intro d w told db' hok
    exact Deed.answered_of_ok hr hok
  · intro d w e db' he
    exact (Deed.harmless_effect d w db).database_eq he
  · intro registration kind hook w hnot
    exact (Registration.registered registration kind hook w db).unchanged hnot
  · intro h link w hc c h'
    refine ⟨?_, ?_⟩
    · intro answer hok
      have heffect := Service.effect_of_call_ok hc hok
      exact Deed.answered_of_ok hr (Program.bind_pure_ok.mpr ⟨answer, heffect, rfl⟩)
    · intro e he
      have hended : Service.call c h = ended (.error e) h' := he
      rcases Called.step_cases hc hr.logs.1.ne_blank hended with ⟨-, hcontent⟩ | ⟨hresult, hcontent⟩
      · exact hcontent
      · rw [hcontent]
        exact Call.harmless_program c w db e hresult.symm

/-- A hook that adds a role and then refuses. -/
def refusing : Hook := { additions := [.role { id := "dev" }], ending := .refuse (.storage .unknown) }

/-- The hook is run, a user is added, an update that carries the wrong version fails and another one
succeeds: the role was never there, and the user and the mapping were overwritten once. -/
theorem versions_count_of_failures : ∃ (log : Commits) (db : Database), db.Logged log ∧
    log .role ["dev"] = [] ∧ db.row? .role ["dev"] = none ∧
    log .user ["ada"] = [.overwritten, .inserted] ∧ db.version? .user ["ada"] = some 2 ∧
    log .mapping ["ada", Mapping.defaultSource] = [.overwritten, .inserted] ∧
    db.version? .mapping ["ada", Mapping.defaultSource] = some 2 ∧ db.Counted log := by
  have hfresh : Logged .none migrated := .fresh rfl
  have hrefused := hfresh.registered .free .fresh .role refusing
  have hadded := hrefused.worked .free (.call (.addUser { id := "ada" } (.ofList ["dev"])))
  have hstale := hadded.worked .free (.call (.updateUser { id := "ada", version := some ⟨7⟩ } .empty))
  have hupdated := hstale.worked .free (.call (.updateUser { id := "ada" } (.ofList ["ops"])))
  exact ⟨_, _, hupdated, rfl, rfl, rfl, rfl, rfl, rfl, hupdated.versions_count.1⟩

end Database

end AccessStore
