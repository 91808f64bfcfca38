/-
Registering a kind, all or nothing.

A hook may add records of any kinds, get stuck on one of them, give up or panic, and whatever it has
done by then was done in the transaction in which its kind was marked.  So the marker and all of the
additions are there together, or the database is what it was.  What a hook can come to is known from
the content at the start, by `Addable` and `FirstRefusal`, and how it ends; from there
`allOrNothing_register` reads off the whole of an attempt, down to the session it leaves.

That the hook runs once, and only where it should, shows in the events.  Nothing tells an event but
the first use of a kind and the hook itself, at its start, so most of what is done is quiet, and what
has been told in an attempt tells whether the hook was run.
-/
import AccessStore.Proofs.Additions
import AccessStore.Proofs.ConcurrentRegistration
import AccessStore.Proofs.WellFormed

namespace AccessStore

/-! ### What is told -/

namespace Action

variable {ε δ α β : Type}

/-- The action tells no event, however it ends. -/
def Quiet (action : Action ε α) : Prop := ∀ s, (leftBy (action s)).journal = s.journal

theorem quiet_pure (a : α) : (pure a : Action ε α).Quiet := fun _ => rfl

theorem quiet_throw (e : ε) : (throw e : Action ε α).Quiet := fun _ => rfl

theorem quiet_ofExcept (result : Except ε α) : (ofExcept result).Quiet := by
  cases result with
  | ok a => exact quiet_pure a
  | error e => exact quiet_throw e

/-- What is told by one action after another, the second of which is quiet. -/
theorem journal_bind {action : Action ε α} {next : α → Action ε β} (hn : ∀ a, (next a).Quiet)
    (s : Session) : (leftBy ((action >>= next) s)).journal = (leftBy (action s)).journal := by
  show (leftBy (EStateM.bind action next s)).journal = _
  unfold EStateM.bind
  cases action s with
  | ok a s' => exact hn a s'
  | error e s' => rfl

theorem Quiet.bind {action : Action ε α} {next : α → Action ε β} (ha : action.Quiet)
    (hn : ∀ a, (next a).Quiet) : (action >>= next).Quiet :=
  fun s => (journal_bind hn s).trans (ha s)

/-- Failures told in other terms are no more events than before. -/
theorem journal_mapError (f : ε → δ) (action : Action ε α) (s : Session) :
    (leftBy (action.mapError f s)).journal = (leftBy (action s)).journal := by
  unfold mapError
  cases action s <;> rfl

theorem Quiet.mapError {action : Action ε α} (ha : action.Quiet) (f : ε → δ) :
    (action.mapError f).Quiet :=
  fun s => (journal_mapError f action s).trans (ha s)

theorem quiet_contents : contents.Quiet := by
  intro s
  unfold contents
  split <;> rfl

theorem quiet_claim : claim.Quiet := by
  intro s
  unfold claim
  split <;> rfl

theorem quiet_setView (f : Session → Database) :
    (modify fun s => s.setView (f s) : Action ε PUnit).Quiet := by
  intro s
  show (s.setView (f s)).journal = s.journal
  unfold Session.setView
  split <;> rfl

theorem quiet_table (kind : Kind) : (table kind).Quiet := by
  refine quiet_contents.bind fun db => ?_
  split
  · exact quiet_pure _
  · exact quiet_throw _

theorem quiet_change (kind : Kind) (f : Table → Except StorageFault (α × Table)) :
    (change kind f).Quiet := by
  refine (quiet_table kind).bind fun t => quiet_claim.bind fun _ => ?_
  refine (quiet_ofExcept (f t)).bind fun changed => ?_
  exact (quiet_setView fun s => s.view.setTable kind changed.2).bind fun _ => quiet_pure _

theorem quiet_mark (kind : Kind) : (mark kind).Quiet := by
  refine quiet_contents.bind fun db => ?_
  split
  · exact quiet_throw _
  · refine quiet_claim.bind fun _ => ?_
    exact (quiet_setView _).bind fun _ => quiet_pure _

/-- A plain action that is quiet goes on from a session by its effect and nothing else. -/
theorem Quiet.apply {action : Action ε α} (hquiet : action.Quiet) (hplain : action.Plain) {s : Session}
    (hs : s.Sound) : action s = s.resume [] (action.effect s.terms s.view) := by
  obtain ⟨events, hgo⟩ := hplain s hs
  have hjournal := hquiet s
  rw [hgo] at hjournal ⊢
  have hnone : events = [] := by
    rcases ho : action.effect s.terms s.view with ⟨result, db⟩
    rw [ho] at hjournal
    cases result <;> simpa [Session.resume, leftBy, Session.onward] using hjournal
  rw [hnone]

/-- A transaction tells what its body tells, if it can be opened. -/
theorem journal_atomic (refused : StorageFault → ε) (body : Action ε α) {s : Session}
    (hs : s.transaction = none) :
    (leftBy (atomic refused body s)).journal = match s.terms.barrier? with
      | some _ => s.journal
      | none => (leftBy (body { s with transaction := some s.database })).journal := by
  have hbegin : begin s = match s.terms.barrier? with
      | some fault => .error fault s
      | none => .ok () { s with transaction := some s.database } := by
    rw [begin, hs]
    rfl
  cases hbarrier : s.terms.barrier? with
  | some fault => simp [atomic, bind, EStateM.bind, mapError, hbegin, hbarrier, leftBy]
  | none =>
      simp only [atomic, bind, EStateM.bind, mapError, hbegin, hbarrier, tryCatch_apply]
      -- Neither committing nor giving up tells anything.
      cases body { s with transaction := some s.database } with
      | ok a s' => cases ht : s'.transaction <;> simp [commit, ht, leftBy, pure, EStateM.pure]
      | error e s' =>
          cases ht : s'.transaction <;> simp only [rollback, ht] <;> rfl

end Action

namespace Hook

theorem quiet_add (r : Record) : (Records.add r).run.Quiet := by
  rw [Records.add, Program.run_bind]
  refine Action.Quiet.bind (Action.quiet_ofExcept _) fun _ => ?_
  rw [Program.run_bind, Records.statement, Program.run_once]
  refine ((Action.quiet_change _ _).mapError _).bind fun inserted => ?_
  cases inserted with
  | true => exact Action.quiet_pure _
  | false => exact Action.quiet_throw _

theorem quiet_addAll (records : List Record) : (addAll records).Quiet := by
  induction records with
  | nil => exact Action.quiet_pure ()
  | cons r rest ih => exact (quiet_add r).bind fun _ => ih

theorem quiet_finish (hook : Hook) : hook.finish.Quiet := by
  unfold finish
  split
  · exact Action.quiet_pure ()
  · exact Action.quiet_throw _
  · exact Action.quiet_throw _

/-- A hook that is run tells its announcement, however it ends. -/
theorem journal_run (hook : Hook) (s : Session) :
    (leftBy (hook.run s)).journal = s.journal ++ hook.announcement.toList := by
  have hrest : ((addAll hook.additions).mapError Stop.failed >>= fun _ => hook.finish).Quiet :=
    ((quiet_addAll _).mapError _).bind fun _ => hook.quiet_finish
  rw [run, Action.journal_bind (fun _ => hrest), announce]
  cases hook.announcement with
  | none => exact (List.append_nil _).symm
  | some event => rfl

/-! ### What a hook comes to -/

variable {w : Terms} {db : Database} {hook : Hook}

/-- Why a hook does not succeed. -/
inductive Stops (hook : Hook) (w : Terms) (db : Database) : Stop StoreError → Prop
  /-- One of its records cannot be added, and it goes no further. -/
  | adding {e : StoreError} (h : FirstRefusal w db hook.additions e) : Stops hook w db (.failed e)
  /-- It has added them all and gives up. -/
  | refusing {e : StoreError} (h : Addable w db hook.additions) (hending : hook.ending = .refuse e) :
      Stops hook w db (.failed e)
  /-- It has added them all and panics. -/
  | panicking (h : Addable w db hook.additions) (hending : hook.ending = .panic) :
      Stops hook w db .panicked

/-- A hook does not stop that can add its records and means to succeed. -/
theorem Stops.not_succeeding {stop : Stop StoreError} (h : hook.Stops w db stop)
    (hadd : Addable w db hook.additions) : hook.ending ≠ .succeed := by
  intro hsucceed
  cases h with
  | adding hrefusal => exact hrefusal.not_addable hadd
  | refusing _ hending =>
      rw [hsucceed] at hending
      cases hending
  | panicking _ hending =>
      rw [hsucceed] at hending
      cases hending

/-- A hook succeeds with all of its additions, or it stops. -/
theorem effect_run_cases (hook : Hook) (w : Terms) (db : Database) :
    (Addable w db hook.additions ∧ hook.ending = .succeed ∧
        hook.run.effect w db = ⟨.ok (), db.grown hook.additions⟩) ∨
      ∃ stop, hook.Stops w db stop ∧ (hook.run.effect w db).result = .error stop := by
  rw [effect_run]
  rcases effect_addAll_cases w db hook.additions with ⟨hadd, heffect⟩ | ⟨e, hrefusal, herror⟩
  · rw [heffect, Outcome.mapError_ok, Outcome.andThen_ok, finish]
    cases hending : hook.ending with
    | succeed => exact .inl ⟨hadd, rfl, rfl⟩
    | refuse e => exact .inr ⟨_, .refusing hadd hending, rfl⟩
    | panic => exact .inr ⟨_, .panicking hadd hending, rfl⟩
  · rcases ho : (addAll hook.additions).effect w db with ⟨result, db'⟩
    rw [ho] at herror
    obtain rfl : result = .error e := herror
    exact .inr ⟨_, .adding hrefusal, rfl⟩

/-- Marking a kind makes no difference to records. -/
theorem addable_mark (kind : Kind) {records : List Record} :
    Addable w (db.mark kind) records ↔ Addable w db records :=
  ⟨fun h => ⟨h.named, h.writable, h.distinct, h.untaken⟩,
    fun h => ⟨h.named, h.writable, h.distinct, h.untaken⟩⟩

/-- Marking a kind makes no difference to a hook. -/
theorem Stops.of_mark {kind : Kind} {stop : Stop StoreError} (h : hook.Stops w (db.mark kind) stop) :
    hook.Stops w db stop := by
  cases h with
  | adding hrefusal =>
      obtain ⟨before, r, after, hsplit, hbefore, hrefused⟩ := hrefusal
      refine .adding ⟨before, r, after, hsplit, (addable_mark kind).mp hbefore, ?_⟩
      cases hrefused with
      | blank hblank => exact .blank hblank
      | storage hnamed hfault => exact .storage hnamed hfault
      | taken hnamed hw htaken => exact .taken hnamed hw htaken
  | refusing hadd hending => exact .refusing ((addable_mark kind).mp hadd) hending
  | panicking hadd hending => exact .panicking ((addable_mark kind).mp hadd) hending

end Hook

/-- The other content is this one with the kind marked and the records added, each at the first
version, and nothing else is different. -/
structure Database.MarkedWith (db : Database) (kind : Kind) (records : List Record) (db' : Database) :
    Prop where
  schemaVersion : db'.schemaVersion = db.schemaVersion
  tables : ∀ other, (db'.table? other).isSome = (db.table? other).isSome
  markers : db'.markers = db.markers.map (·.set kind true)
  rows : ∀ other key, db'.row? other key
    = match records.find? (·.spot = (other, key)) with
      | some r => some ⟨1, Records.payload r⟩
      | none => db.row? other key

theorem Addable.markedWith {w : Terms} {db : Database} {records : List Record} (kind : Kind)
    (h : Addable w db records) : db.MarkedWith kind records ((db.mark kind).grown records) := by
  have hedited : Edited (fun _ _ => True) (db.mark kind) ((db.mark kind).grown records) :=
    Database.edited_grown (fun _ _ => trivial) h.named _
  have htables : ∀ r ∈ records, ((db.mark kind).table? r.kind).isSome := by
    intro r hr
    obtain ⟨t, ht⟩ := Terms.table?_of_writeFault? (h.writable r hr)
    exact Option.isSome_iff_exists.mpr ⟨t, ht⟩
  exact ⟨hedited.schemaVersion, hedited.isSome_table?, hedited.markers,
    Database.row?_grown htables h.distinct⟩

/-! ### Attempts -/

/-- Why a kind cannot even be marked. -/
def Terms.hindrance? (w : Terms) (db : Database) : Option StorageFault :=
  match w.barrier? with
  | some fault => some fault
  | none => w.markFault? db

/-- On free terms a kind can be marked in every database that has a table for it. -/
theorem Terms.hindrance?_free {db : Database} (h : db.markers.isSome) : free.hindrance? db = none := by
  show (if db.markers.isSome then free.refusal? else some StorageFault.unknown) = none
  rw [if_pos h]
  rfl

namespace Registration

variable {kind : Kind} {hook : Hook} {s : Session}

/-- The events of an attempt in which the hook is run. -/
def told (kind : Kind) (hook : Hook) : List Event := firstUse kind :: hook.announcement.toList

/-- What comes of running the hook. -/
inductive FirstUse (kind : Kind) (hook : Hook) (s : Session) : Attempt → Prop
  /-- It succeeds: the kind is marked, all of its records are added, and the store is ready. -/
  | done {db : Database} (hadd : Addable s.terms s.database hook.additions)
      (hending : hook.ending = .succeed) (h : s.database.MarkedWith kind hook.additions db) :
      FirstUse kind hook s ⟨.ok true, true, .ready, s.onward db (told kind hook)⟩
  /-- It does not: its failure or panic is passed on, the store has failed, and the database is as it
  was. -/
  | stopped {stop : Stop StoreError} (h : hook.Stops s.terms s.database stop) :
      FirstUse kind hook s ⟨.error stop, true, .failed, s.onward s.database (told kind hook)⟩

/-- The hook succeeds exactly if all of its records can be added and it means to succeed. -/
theorem FirstUse.succeeds_iff {attempt : Attempt} (h : FirstUse kind hook s attempt) :
    attempt.result = .ok true ↔
      Addable s.terms s.database hook.additions ∧ hook.ending = .succeed := by
  cases h with
  | done hadd hending _ => exact ⟨fun _ => ⟨hadd, hending⟩, fun _ => rfl⟩
  | stopped hstops =>
      refine ⟨fun hok => (by cases hok), ?_⟩
      rintro ⟨hadd, hending⟩
      exact absurd hending (hstops.not_succeeding hadd)

/-- What an attempt comes to, in each situation. -/
structure AllOrNothing (registration : Registration) (kind : Kind) (hook : Hook) (s : Session)
    (attempt : Attempt) : Prop where
  /-- A store that is ready says so. -/
  ready : registration = .ready → attempt = ⟨.ok false, false, .ready, s⟩
  /-- A store that has failed refuses. -/
  failed : registration = .failed →
    attempt = ⟨.error (.failed (.registrationFailed kind)), false, .failed, s⟩
  /-- There is no registering in an open transaction, which is left as it is. -/
  underway : registration = .fresh → s.transaction.isSome →
    attempt = ⟨.error (.failed (.storage .unknown)), false, .failed, s⟩
  /-- Where the kind cannot be marked, the fault is passed on. -/
  hindered : registration = .fresh → s.transaction = none → ∀ fault,
    s.terms.hindrance? s.database = some fault →
      attempt = ⟨.error (.failed (.storage fault)), false, .failed, s⟩
  /-- For a kind that is marked there is nothing to do. -/
  marked : registration = .fresh → s.transaction = none → s.terms.hindrance? s.database = none →
    s.database.isMarked kind = true → attempt = ⟨.ok false, false, .ready, s⟩
  /-- Otherwise the hook is run. -/
  unmarked : registration = .fresh → s.transaction = none → s.terms.hindrance? s.database = none →
    s.database.isMarked kind = false → FirstUse kind hook s attempt

/-- What is told of a kind after marking it. -/
theorem journal_seed (kind : Kind) (hook : Hook) (first : Bool) (s : Session) :
    (leftBy (seed kind hook first s)).journal = s.journal ++ if first then told kind hook else [] := by
  cases first with
  | false => exact (List.append_nil _).symm
  | true =>
      show (leftBy ((hook.run.mapError Unprepared.byHook >>= fun _ => pure true)
        { s with journal := s.journal ++ [firstUse kind] })).journal = _
      rw [Action.journal_bind fun _ => Action.quiet_pure true, Action.journal_mapError, Hook.journal_run]
      exact List.append_assoc _ _ _

/-- What preparing a kind comes to, seen from the start. -/
theorem effect_prepare_hindrance (kind : Kind) (hook : Hook) (w : Terms) (db : Database) :
    (prepare kind hook).effect w db = match w.hindrance? db with
      | some fault => ⟨.error (.refused fault), db⟩
      | none =>
          if db.isMarked kind then ⟨.ok false, db⟩
          else match (hook.run.effect w (db.mark kind)).result with
            | .ok () => ⟨.ok true, (hook.run.effect w (db.mark kind)).database⟩
            | .error stop => ⟨.error (.byHook stop), db⟩ := by
  rw [effect_prepare, Terms.hindrance?]
  cases w.barrier? <;> rfl

/-- What is told in the transaction of an attempt. -/
theorem journal_body (kind : Kind) (hook : Hook) (hs : s.Sound) :
    (leftBy (((Action.mark kind).mapError Unprepared.refused >>= seed kind hook) s)).journal
      = s.journal ++ match s.terms.markFault? s.view with
        | some _ => []
        | none => if s.view.isMarked kind then [] else told kind hook := by
  have hmark := ((Action.quiet_mark kind).mapError Unprepared.refused).apply (plain_mark kind) hs
  rw [Action.effect_mapError, Action.effect_mark] at hmark
  cases hfault : s.terms.markFault? s.view with
  | some fault =>
      simp only [hfault] at hmark
      show (leftBy (EStateM.bind _ (seed kind hook) s)).journal = _
      simp [EStateM.bind, hmark, Session.resume, leftBy, Session.onward]
  | none =>
      simp only [hfault] at hmark
      show (leftBy (EStateM.bind _ (seed kind hook) s)).journal = _
      simp only [EStateM.bind, hmark, Session.resume, Outcome.mapError_ok]
      rw [journal_seed]
      cases s.view.isMarked kind <;> simp [Session.onward]

/-- An attempt tells what it has to tell exactly if the hook is run in it. -/
theorem journal_prepare (kind : Kind) (hook : Hook) (hs : s.transaction = none) :
    (leftBy (prepare kind hook s)).journal
      = s.journal ++ if Registering.hookRan ((prepare kind hook).effect s.terms s.database).result
          then told kind hook else [] := by
  rw [effect_prepare]
  refine (Action.journal_atomic Unprepared.refused _ hs).trans ?_
  cases hbarrier : s.terms.barrier? with
  | some fault => exact (List.append_nil _).symm
  | none =>
      have hopened : Session.Sound { s with transaction := some s.database } := fun _ => hbarrier
      refine (journal_body kind hook hopened).trans ?_
      show s.journal ++ (match s.terms.markFault? s.database with
        | some _ => []
        | none => if s.database.isMarked kind then [] else told kind hook) = _
      cases s.terms.markFault? s.database with
      | some fault => rfl
      | none =>
          cases hmarked : s.database.isMarked kind with
          | true => rfl
          | false =>
              rcases hook.run.effect s.terms (s.database.mark kind) with ⟨result, db⟩
              cases result <;> rfl

/-- An attempt of a fresh store, outside of any transaction, is what preparing the kind comes to. -/
theorem register_fresh_exact (kind : Kind) (hook : Hook) (hs : s.transaction = none) :
    let outcome := (prepare kind hook).effect s.terms s.database
    register .fresh kind hook s
      = ⟨outcome.result.mapError Unprepared.stop, Registering.hookRan outcome.result,
          after outcome.result,
          s.onward outcome.database
            (if Registering.hookRan outcome.result then told kind hook else [])⟩ := by
  intro outcome
  have hbody := Action.plain_bind (plain_mark kind) (plain_seed kind hook)
  obtain ⟨events, hgo⟩ := Action.atomic_resume .refused hbody hs
  rw [← prepare_eq] at hgo
  change prepare kind hook s = s.resume events outcome at hgo
  have hjournal : (leftBy (s.resume events outcome)).journal
      = s.journal ++ if Registering.hookRan outcome.result then told kind hook else [] := by
    rw [← hgo]
    exact journal_prepare kind hook hs
  have hresume : (leftBy (s.resume events outcome)).journal = s.journal ++ events := by
    rcases outcome with ⟨result, db⟩
    cases result <;> rfl
  have hevents := List.append_cancel_left (hresume.symm.trans hjournal)
  rw [← hevents, register, settled?]
  simp only [hgo]
  rcases outcome with ⟨result, db⟩
  cases result <;> rfl

/-- Whatever the situation of a store is, an attempt comes to what is said of it. -/
theorem allOrNothing_register (registration : Registration) (kind : Kind) (hook : Hook) (s : Session) :
    AllOrNothing registration kind hook s (registration.register kind hook s) := by
  have hkept : s.transaction = none → s.onward s.database [] = s := by
    intro hs
    have hview : s.view = s.database := by rw [Session.view, hs]; rfl
    rw [← hview]
    exact s.onward_nil
  refine ⟨?_, ?_, ?_, ?_, ?_, ?_⟩
  · rintro rfl
    rfl
  · rintro rfl
    rfl
  · rintro rfl htransaction
    have hbegin : Action.begin s = .error .unknown s := by
      rw [Action.begin, if_pos htransaction]
    have hprepare : prepare kind hook s = .error (.refused .unknown) s := by
      simp [prepare, Action.atomic, bind, EStateM.bind, Action.mapError, hbegin]
    rw [register, settled?]
    simp only [hprepare]
    rfl
  · rintro rfl hs fault hfault
    rw [register_fresh_exact kind hook hs, effect_prepare_hindrance, hfault]
    exact congrArg _ (hkept hs)
  · rintro rfl hs hfault hmarked
    rw [register_fresh_exact kind hook hs, effect_prepare_hindrance, hfault]
    simp only [if_pos hmarked]
    exact congrArg _ (hkept hs)
  · rintro rfl hs hfault hmarked
    rw [register_fresh_exact kind hook hs, effect_prepare_hindrance, hfault]
    simp only [hmarked, Bool.false_eq_true, if_false]
    rcases hook.effect_run_cases s.terms (s.database.mark kind) with
      ⟨hadd, hending, heffect⟩ | ⟨stop, hstops, hresult⟩
    · have hadd' := (Hook.addable_mark kind).mp hadd
      rw [heffect]
      exact .done hadd' hending (hadd'.markedWith kind)
    · rw [hresult]
      exact .stopped hstops.of_mark

/-- An attempt is the first use of the kind exactly where there is one and the hook succeeds. -/
theorem AllOrNothing.succeeds_iff {registration : Registration} {attempt : Attempt}
    (h : AllOrNothing registration kind hook s attempt) : attempt.result = .ok true ↔
      registration = .fresh ∧ s.transaction = none ∧ s.terms.hindrance? s.database = none ∧
        s.database.isMarked kind = false ∧ Addable s.terms s.database hook.additions ∧
        hook.ending = .succeed := by
  constructor
  · intro hok
    cases registration with
    | ready =>
        rw [h.ready rfl] at hok
        cases hok
    | failed =>
        rw [h.failed rfl] at hok
        cases hok
    | fresh =>
        cases htransaction : s.transaction with
        | some db =>
            rw [h.underway rfl (by rw [htransaction]; rfl)] at hok
            cases hok
        | none =>
            cases hfault : s.terms.hindrance? s.database with
            | some fault =>
                rw [h.hindered rfl htransaction fault hfault] at hok
                cases hok
            | none =>
                cases hmarked : s.database.isMarked kind with
                | true =>
                    rw [h.marked rfl htransaction hfault hmarked] at hok
                    cases hok
                | false =>
                    have huse := h.unmarked rfl htransaction hfault hmarked
                    exact ⟨rfl, rfl, rfl, rfl, huse.succeeds_iff.mp hok⟩
  · rintro ⟨rfl, htransaction, hfault, hmarked, hsucceeds⟩
    exact (h.unmarked rfl htransaction hfault hmarked).succeeds_iff.mpr hsucceeds

/-- **Registering a kind is all or nothing.**  Whatever the database holds, on whatever terms the store
works and whatever it remembers, an attempt comes to what is said of its situation.  It is the first use
of the kind exactly if nothing is in the way and the hook succeeds; if the hook is run and does not
succeed, nothing of what it did is left.  Nothing hinders a store on free terms whose database can hold
markers. -/
theorem register_all_or_nothing (registration : Registration) (kind : Kind) (hook : Hook)
    (s : Session) :
    AllOrNothing registration kind hook s (registration.register kind hook s) ∧
      ((registration.register kind hook s).result = .ok true ↔
        registration = .fresh ∧ s.transaction = none ∧ s.terms.hindrance? s.database = none ∧
          s.database.isMarked kind = false ∧ Addable s.terms s.database hook.additions ∧
          hook.ending = .succeed) ∧
      (s.terms = .free → s.database.markers.isSome → s.terms.hindrance? s.database = none) := by
  have hall := allOrNothing_register registration kind hook s
  refine ⟨hall, hall.succeeds_iff, ?_⟩
  intro hfree hmarkers
  rw [hfree]
  exact Terms.hindrance?_free hmarkers

end Registration

end AccessStore
