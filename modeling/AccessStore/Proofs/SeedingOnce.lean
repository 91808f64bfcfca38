/-
A kind is prepared once.

Any number of stores register on one database, each at any time and as often as it likes,
with hooks that add whatever they like and then succeed, fail or panic; in between
clients do whatever they do.  Two things have to go together for every kind to be
prepared once.  A store remembers what came of its first attempt and never makes another
(`register_settled`).  And the marker of a kind is set in the same transaction in which
the hook does its work, so it is there exactly when that work is (`register_fresh`).
Since clients never touch markers, both last for good.
-/
import AccessStore.Proofs.Deeds
import AccessStore.Registration

namespace AccessStore

/-! ### Hooks -/

namespace Hook

variable {w : Terms} {db : Database}

theorem plain_addAll (records : List Record) : (addAll records).Plain := by
  induction records with
  | nil => exact Action.plain_pure ()
  | cons r rest ih => exact Action.plain_bind (Records.plain_add r).run fun _ => ih

theorem plain_announce (hook : Hook) : hook.announce.Plain := by
  unfold announce
  split
  · exact Action.plain_tell _
  · exact Action.plain_pure ()

theorem plain_finish (hook : Hook) : hook.finish.Plain := by
  unfold finish
  split
  · exact Action.plain_pure ()
  · exact Action.plain_throw _
  · exact Action.plain_throw _

theorem plain_run (hook : Hook) : hook.run.Plain :=
  Action.plain_bind hook.plain_announce fun _ =>
    Action.plain_bind (Action.plain_mapError _ (plain_addAll _)) fun _ => hook.plain_finish

/-- Records are added one by one, up to one that cannot be added. -/
theorem effect_addAll_cons (r : Record) (rest : List Record) (w : Terms) (db : Database) :
    (addAll (r :: rest)).effect w db
      = ((Records.add r).effect w db).andThen fun _ db => (addAll rest).effect w db := by
  rw [addAll, Action.effect_bind (Records.plain_add r).run fun _ => plain_addAll rest,
    (Records.plain_add r).effect_run]

theorem effect_announce (hook : Hook) (w : Terms) (db : Database) :
    hook.announce.effect w db = ⟨.ok (), db⟩ := by
  unfold announce
  split <;> rfl

theorem database_finish (hook : Hook) (w : Terms) (db : Database) :
    (hook.finish.effect w db).database = db := by
  unfold finish
  split <;> rfl

/-- What a hook does: it adds its records and ends as it is to end. -/
theorem effect_run (hook : Hook) (w : Terms) (db : Database) :
    hook.run.effect w db = (((addAll hook.additions).effect w db).mapError Stop.failed).andThen
      fun _ db => hook.finish.effect w db := by
  have hadd : ((addAll hook.additions).mapError Stop.failed).Plain :=
    Action.plain_mapError _ (plain_addAll _)
  rw [run, Action.effect_bind hook.plain_announce fun _ =>
    Action.plain_bind hadd fun _ => hook.plain_finish, effect_announce, Outcome.andThen_ok,
    Action.effect_bind hadd fun _ => hook.plain_finish, Action.effect_mapError]

theorem edited_addAll {spots : Kind → Key → Prop} {records : List Record}
    (hspots : ∀ r ∈ records, spots r.kind r.key) (w : Terms) (db : Database) :
    Edited spots db ((addAll records).effect w db).database := by
  induction records generalizing db with
  | nil => exact .same
  | cons r rest ih =>
      rw [effect_addAll_cons]
      have hr := edited_add (hspots r List.mem_cons_self) w db
      exact hr.andThen fun _ db => ih (fun r' hr' => hspots r' (List.mem_cons_of_mem _ hr')) db

/-- A hook puts rows, however it ends. -/
theorem edited_run (hook : Hook) (w : Terms) (db : Database) :
    Edited (fun _ _ => True) db (hook.run.effect w db).database := by
  rw [effect_run]
  refine Edited.andThen ?_ ?_
  · exact edited_addAll (fun _ _ => trivial) w db
  · intro _ db
    rw [database_finish]
    exact .same

end Hook

/-! ### Registering -/

namespace Registration

/-- What is done about a kind after marking it, which was the first time or not. -/
def seed (kind : Kind) (hook : Hook) (first : Bool) : Action Unprepared Bool := do
  if first then
    Action.tell (firstUse kind)
    hook.run.mapError .byHook
  pure first

theorem prepare_eq (kind : Kind) (hook : Hook) :
    prepare kind hook
      = .atomic .refused ((Action.mark kind).mapError .refused >>= seed kind hook) := rfl

theorem plain_mark (kind : Kind) : ((Action.mark kind).mapError Unprepared.refused).Plain :=
  Action.plain_mapError _ (Action.plain_mark kind)

theorem plain_byHook (hook : Hook) : (hook.run.mapError Unprepared.byHook).Plain :=
  Action.plain_mapError _ hook.plain_run

theorem plain_seed (kind : Kind) (hook : Hook) (first : Bool) : (seed kind hook first).Plain := by
  cases first with
  | true =>
      exact Action.plain_bind (Action.plain_tell _) fun _ =>
        Action.plain_bind (plain_byHook hook) fun _ => Action.plain_pure true
  | false => exact Action.plain_pure false

/-- The first time the hook is run. -/
theorem effect_seed_true (kind : Kind) (hook : Hook) (w : Terms) (db : Database) :
    (seed kind hook true).effect w db = match (hook.run.effect w db).result with
      | .ok () => ⟨.ok true, (hook.run.effect w db).database⟩
      | .error stop => ⟨.error (.byHook stop), (hook.run.effect w db).database⟩ := by
  have hseed : seed kind hook true = (Action.tell (firstUse kind) >>= fun _ =>
      hook.run.mapError .byHook >>= fun _ => pure true) := rfl
  rw [hseed, Action.effect_bind (Action.plain_tell _) fun _ =>
    Action.plain_bind (plain_byHook hook) fun _ => Action.plain_pure true, Action.effect_tell,
    Outcome.andThen_ok, Action.effect_bind_pure, Action.effect_mapError]
  rcases hook.run.effect w db with ⟨result, db'⟩
  cases result <;> rfl

/-- What preparing a kind does. -/
theorem effect_prepare (kind : Kind) (hook : Hook) (w : Terms) (db : Database) :
    (prepare kind hook).effect w db = match w.barrier? with
      | some fault => ⟨.error (.refused fault), db⟩
      | none => match w.markFault? db with
        | some fault => ⟨.error (.refused fault), db⟩
        | none =>
            if db.isMarked kind then ⟨.ok false, db⟩
            else match (hook.run.effect w (db.mark kind)).result with
              | .ok () => ⟨.ok true, (hook.run.effect w (db.mark kind)).database⟩
              | .error stop => ⟨.error (.byHook stop), db⟩ := by
  have hbody := Action.plain_bind (plain_mark kind) (plain_seed kind hook)
  rw [prepare_eq, Action.effect_atomic _ hbody,
    Action.effect_bind (plain_mark kind) (plain_seed kind hook), Action.effect_mapError,
    Action.effect_mark]
  cases w.barrier? with
  | some fault => rfl
  | none =>
      cases w.markFault? db with
      | some fault => rfl
      | none =>
          cases hmarked : db.isMarked kind with
          | true =>
              rw [Database.mark_of_isMarked hmarked]
              rfl
          | false =>
              show ((seed kind hook true).effect w (db.mark kind)).settle db = _
              rw [effect_seed_true]
              rcases hook.run.effect w (db.mark kind) with ⟨result, db'⟩
              cases result <;> rfl

/-- What a store does about a kind when it registers, on a database as it was before. -/
structure Registered (registration : Registration) (kind : Kind) (db : Database)
    (attempt : Attempt) : Prop where
  /-- The store will not try again. -/
  settled : attempt.registration ≠ .fresh
  /-- A store that is settled leaves it at that. -/
  once : registration ≠ .fresh → attempt.hookRan = false
  /-- Nor is a hook run for a kind that is marked. -/
  unmarked : attempt.hookRan = true → db.isMarked kind = false
  /-- What is not a first registration changes nothing. -/
  unchanged : attempt.result ≠ .ok true → attempt.session.database = db
  /-- A first registration has run the hook and marked the kind. -/
  first : attempt.result = .ok true → attempt.hookRan = true ∧
    ∀ other, attempt.session.database.isMarked other = (db.isMarked other || other = kind)

theorem registered_settled {registration : Registration} (h : registration ≠ .fresh) (kind : Kind)
    (hook : Hook) (w : Terms) (db : Database) :
    Registered registration kind db (registration.register kind hook (w.session db)) := by
  cases registration with
  | fresh => exact absurd rfl h
  | ready => exact ⟨h, fun _ => rfl, by simp [register, settled?], fun _ => rfl, by simp [register, settled?]⟩
  | failed => exact ⟨h, fun _ => rfl, by simp [register, settled?], fun _ => rfl, by simp [register, settled?]⟩

theorem isMarked_of_prepare (kind : Kind) (hook : Hook) {w : Terms} {db : Database}
    (hmark : w.markFault? db = none) (other : Kind) :
    (hook.run.effect w (db.mark kind)).database.isMarked other = (db.isMarked other || other = kind) := by
  have hmarkers : db.markers.isSome := by
    unfold Terms.markFault? at hmark
    split at hmark
    · simp at hmark
    · split at hmark
      · assumption
      · simp at hmark
  rw [← Database.isMarked_mark hmarkers kind other, Database.isMarked, Database.isMarked,
    (hook.edited_run w (db.mark kind)).markers]

/-- The four ways in which preparing a kind can go. -/
theorem prepare_cases (kind : Kind) (hook : Hook) (w : Terms) (db : Database) :
    (∃ fault, (prepare kind hook).effect w db = ⟨.error (.refused fault), db⟩) ∨
      (prepare kind hook).effect w db = ⟨.ok false, db⟩ ∨
      db.isMarked kind = false ∧
        ((∃ stop, (prepare kind hook).effect w db = ⟨.error (.byHook stop), db⟩) ∨
          ∃ db', (prepare kind hook).effect w db = ⟨.ok true, db'⟩ ∧
            ∀ other, db'.isMarked other = (db.isMarked other || other = kind)) := by
  rw [effect_prepare]
  cases w.barrier? with
  | some fault => exact .inl ⟨fault, rfl⟩
  | none =>
      cases hmark : w.markFault? db with
      | some fault => exact .inl ⟨fault, rfl⟩
      | none =>
          cases hmarked : db.isMarked kind with
          | true => exact .inr (.inl rfl)
          | false =>
              refine .inr (.inr ⟨rfl, ?_⟩)
              have hmarks := isMarked_of_prepare kind hook hmark
              rcases ho : hook.run.effect w (db.mark kind) with ⟨result, db'⟩
              rw [ho] at hmarks
              cases result with
              | ok _ => exact .inr ⟨db', rfl, hmarks⟩
              | error stop => exact .inl ⟨stop, rfl⟩

theorem registered_fresh (kind : Kind) (hook : Hook) (w : Terms) (db : Database) :
    Registered .fresh kind db (register .fresh kind hook (w.session db)) := by
  have hcases := prepare_cases kind hook w db
  rw [register, settled?]
  simp only [Action.effect] at hcases ⊢
  rcases hp : prepare kind hook (w.session db) with ⟨first, s⟩ | ⟨e, s⟩
  · simp only [hp, Outcome.mk.injEq, Except.ok.injEq, reduceCtorEq, false_and, exists_false,
      false_or] at hcases
    rcases hcases with ⟨rfl, hdb⟩ | ⟨hmarked, db', ⟨rfl, rfl⟩, hmarks⟩
    · exact ⟨by simp [after], fun h => absurd rfl h, by simp, fun _ => hdb, by simp⟩
    · exact ⟨by simp [after], fun h => absurd rfl h, fun _ => hmarked, fun h => absurd rfl h,
        fun _ => ⟨rfl, hmarks⟩⟩
  · simp only [hp, Outcome.mk.injEq, Except.error.injEq, reduceCtorEq, false_and, exists_false,
      false_or, or_false] at hcases
    rcases hcases with ⟨fault, rfl, hdb⟩ | ⟨hmarked, stop, rfl, hdb⟩
    · exact ⟨by simp [after], fun h => absurd rfl h, by simp [Unprepared.hookRan], fun _ => hdb,
        by simp⟩
    · exact ⟨by simp [after], fun h => absurd rfl h, fun _ => hmarked, fun _ => hdb, by simp⟩

theorem registered (registration : Registration) (kind : Kind) (hook : Hook) (w : Terms)
    (db : Database) :
    Registered registration kind db (registration.register kind hook (w.session db)) := by
  by_cases h : registration = .fresh
  · rw [h]
    exact registered_fresh kind hook w db
  · exact registered_settled h kind hook w db

end Registration

/-! ### Stores on one database -/

/-- A database and the stores on it, each of which remembers what came of registering. -/
structure World (σ : Type) where
  database : Database
  registrations : σ → Registration

/-- What can be done: a store registers with a hook, or a client does something. -/
inductive Doing (σ : Type)
  | register (store : σ) (hook : Hook)
  | deed (d : Deed)

/-- How a store fared that registered. -/
structure Report (σ : Type) where
  store : σ
  kind : Kind
  result : Except (Stop StoreError) Bool
  hookRan : Bool
  /-- The content before and after. -/
  before : Database
  after : Database

namespace World

variable {σ : Type} {kindOf : σ → Kind} {x : World σ} {w : Terms} {store : σ} {hook : Hook}
  {kind : Kind}

/-- A store's attempt to register its kind. -/
def attempt (kindOf : σ → Kind) (x : World σ) (w : Terms) (store : σ) (hook : Hook) : Attempt :=
  (x.registrations store).register (kindOf store) hook (w.session x.database)

/-- The report of this attempt. -/
def report (kindOf : σ → Kind) (x : World σ) (w : Terms) (store : σ) (hook : Hook) : Report σ where
  store := store
  kind := kindOf store
  result := (x.attempt kindOf w store hook).result
  hookRan := (x.attempt kindOf w store hook).hookRan
  before := x.database
  after := (x.attempt kindOf w store hook).session.database

theorem registered_attempt (kindOf : σ → Kind) (x : World σ) (w : Terms) (store : σ) (hook : Hook) :
    Registration.Registered (x.registrations store) (kindOf store) x.database
      (x.attempt kindOf w store hook) :=
  Registration.registered _ _ _ _ _

variable [DecidableEq σ]

/-- The world after something was done on a connection's terms. -/
def step (kindOf : σ → Kind) (x : World σ) (w : Terms) : Doing σ → World σ
  | .register store hook =>
      { database := (x.attempt kindOf w store hook).session.database
        registrations := fun other =>
          if other = store then (x.attempt kindOf w store hook).registration
          else x.registrations other }
  | .deed d => { x with database := (d.effect w x.database).database }

/-- The world after a run. -/
def after (kindOf : σ → Kind) (x : World σ) : List (Terms × Doing σ) → World σ
  | [] => x
  | (w, doing) :: rest => (x.step kindOf w doing).after kindOf rest

/-- The reports of a run. -/
def reports (kindOf : σ → Kind) (x : World σ) : List (Terms × Doing σ) → List (Report σ)
  | [] => []
  | (w, .register store hook) :: rest =>
      x.report kindOf w store hook :: (x.step kindOf w (.register store hook)).reports kindOf rest
  | (w, .deed d) :: rest => (x.step kindOf w (.deed d)).reports kindOf rest

/-! ### What lasts -/

/-- A settled store stays settled. -/
theorem settled_step (kindOf : σ → Kind) (h : x.registrations store ≠ .fresh) (w : Terms)
    (doing : Doing σ) :
    (x.step kindOf w doing).registrations store ≠ .fresh := by
  cases doing with
  | deed d => exact h
  | register other hook =>
      by_cases hs : store = other
      · simp only [step, if_pos hs]
        exact (registered_attempt kindOf x w other hook).settled
      · simp only [step, if_neg hs]
        exact h

/-- A store that has registered is settled. -/
theorem settled_register (kindOf : σ → Kind) (x : World σ) (w : Terms) (store : σ) (hook : Hook) :
    (x.step kindOf w (.register store hook)).registrations store ≠ .fresh := by
  simp only [step, if_true]
  exact (registered_attempt kindOf x w store hook).settled

/-- A kind is marked by a first registration and by nothing else. -/
theorem isMarked_step (kindOf : σ → Kind) (x : World σ) (w : Terms) (doing : Doing σ)
    (kind : Kind) :
    (x.step kindOf w doing).database.isMarked kind = true ↔ x.database.isMarked kind = true ∨
      ∃ store hook, doing = .register store hook ∧ kindOf store = kind ∧
        (x.attempt kindOf w store hook).result = .ok true := by
  cases doing with
  | deed d =>
      have hmarked := (d.sameFrame_effect w x.database).isMarked_eq kind
      simp [step, hmarked]
  | register store hook =>
      have h := registered_attempt kindOf x w store hook
      by_cases hfirst : (x.attempt kindOf w store hook).result = .ok true
      · simp only [step, (h.first hfirst).2 kind, Bool.or_eq_true, decide_eq_true_eq]
        refine or_congr_right ⟨fun hk => ⟨store, hook, rfl, hk.symm, hfirst⟩, ?_⟩
        rintro ⟨_, _, hdoing, hk, -⟩
        cases hdoing
        exact hk.symm
      · simp only [step, h.unchanged hfirst]
        refine ⟨.inl, fun hmarked => hmarked.resolve_right ?_⟩
        rintro ⟨_, _, hdoing, -, hresult⟩
        cases hdoing
        exact hfirst hresult

/-- A store that is settled never runs a hook. -/
theorem hookRan_of_settled (h : x.registrations store ≠ .fresh) (run : List (Terms × Doing σ)) :
    ∀ r ∈ x.reports kindOf run, r.store = store → r.hookRan = false := by
  induction run generalizing x with
  | nil => simp [reports]
  | cons done rest ih =>
      obtain ⟨w, doing⟩ := done
      have hrest := ih (settled_step kindOf h w doing)
      cases doing with
      | deed d => exact hrest
      | register other hook =>
          intro r hr hstore
          rcases List.mem_cons.mp hr with rfl | hr
          · have hother : other = store := hstore
            rw [← hother] at h
            exact (registered_attempt kindOf x w other hook).once h
          · exact hrest r hr hstore

/-- No hook is run for a kind that is marked. -/
theorem hookRan_of_isMarked (h : x.database.isMarked kind = true) (run : List (Terms × Doing σ)) :
    ∀ r ∈ x.reports kindOf run, r.kind = kind → r.hookRan = false := by
  induction run generalizing x with
  | nil => simp [reports]
  | cons done rest ih =>
      obtain ⟨w, doing⟩ := done
      have hrest := ih ((isMarked_step kindOf _ w doing kind).mpr (.inl h))
      cases doing with
      | deed d => exact hrest
      | register store hook =>
          intro r hr hkind
          rcases List.mem_cons.mp hr with rfl | hr
          · have hmarked : x.database.isMarked (kindOf store) = true := by
              rwa [show kindOf store = kind from hkind]
            have hunmarked := (registered_attempt kindOf x w store hook).unmarked
            rw [hmarked] at hunmarked
            exact Bool.eq_false_iff.mpr fun hran => by simpa using hunmarked hran
          · exact hrest r hr hkind

/-- What every single report says. -/
theorem report_of_mem (run : List (Terms × Doing σ)) :
    ∀ r ∈ x.reports kindOf run,
      (r.result ≠ .ok true → r.after = r.before) ∧ (r.result = .ok true → r.hookRan = true) := by
  induction run generalizing x with
  | nil => simp [reports]
  | cons done rest ih =>
      obtain ⟨w, doing⟩ := done
      cases doing with
      | deed d => exact ih
      | register store hook =>
          intro r hr
          rcases List.mem_cons.mp hr with rfl | hr
          · have h := registered_attempt kindOf x w store hook
            exact ⟨h.unchanged, fun hfirst => (h.first hfirst).1⟩
          · exact ih r hr

theorem isMarked_after (run : List (Terms × Doing σ)) (kind : Kind) :
    (x.after kindOf run).database.isMarked kind = true ↔ x.database.isMarked kind = true ∨
      ∃ r ∈ x.reports kindOf run, r.kind = kind ∧ r.result = .ok true := by
  induction run generalizing x with
  | nil => simp [after, reports]
  | cons done rest ih =>
      obtain ⟨w, doing⟩ := done
      rw [after, ih, isMarked_step, or_assoc]
      refine or_congr_right ?_
      cases doing with
      | deed d => simp [reports]
      | register store hook =>
          constructor
          · rintro (⟨_, _, hdoing, h⟩ | ⟨r, hr, h⟩)
            · cases hdoing
              exact ⟨_, List.mem_cons_self, h⟩
            · exact ⟨r, List.mem_cons_of_mem _ hr, h⟩
          · rintro ⟨r, hr, h⟩
            rcases List.mem_cons.mp hr with rfl | hr
            · exact .inl ⟨store, hook, rfl, h⟩
            · exact .inr ⟨r, hr, h⟩

/-! ### The result -/

/-- What it means that kinds are prepared once. -/
structure SeededOnce (kindOf : σ → Kind) (x : World σ) (run : List (Terms × Doing σ)) : Prop where
  /-- A store runs one hook at most. -/
  oneHook : (x.reports kindOf run).Pairwise fun r r' =>
    r.store = r'.store → ¬ (r.hookRan = true ∧ r'.hookRan = true)
  /-- A hook takes effect only in a first registration. -/
  noEffect : ∀ r ∈ x.reports kindOf run, r.result ≠ .ok true → r.after = r.before
  /-- A kind is registered for the first time once at most. -/
  oneFirst : (x.reports kindOf run).Pairwise fun r r' =>
    r.kind = r'.kind → ¬ (r.result = .ok true ∧ r'.result = .ok true)
  /-- A kind is marked if it was at the start or has been registered for the first time. -/
  marked : ∀ kind, (x.after kindOf run).database.isMarked kind = true ↔
    x.database.isMarked kind = true ∨
      ∃ r ∈ x.reports kindOf run, r.kind = kind ∧ r.result = .ok true
  /-- Once a kind is marked no hook of it is run. -/
  noHook : ∀ r ∈ x.reports kindOf run, x.database.isMarked r.kind = true → r.hookRan = false
  /-- After its first registration no hook of a kind is run and registering it changes nothing, so
  what was removed does not come back. -/
  settled : (x.reports kindOf run).Pairwise fun r r' =>
    r.kind = r'.kind → r.result = .ok true → r'.hookRan = false ∧ r'.after = r'.before

theorem oneHook (run : List (Terms × Doing σ)) : (x.reports kindOf run).Pairwise fun r r' =>
    r.store = r'.store → ¬ (r.hookRan = true ∧ r'.hookRan = true) := by
  induction run generalizing x with
  | nil => exact .nil
  | cons done rest ih =>
      obtain ⟨w, doing⟩ := done
      cases doing with
      | deed d => exact ih
      | register store hook =>
          refine List.pairwise_cons.mpr ⟨fun r hr hstore hboth => ?_, ih⟩
          have hsettled := hookRan_of_settled (settled_register kindOf x w store hook) rest r hr
            hstore.symm
          rw [hboth.2] at hsettled
          cases hsettled

theorem noHookAfter (run : List (Terms × Doing σ)) : (x.reports kindOf run).Pairwise fun r r' =>
    r.kind = r'.kind → r.result = .ok true → r'.hookRan = false := by
  induction run generalizing x with
  | nil => exact .nil
  | cons done rest ih =>
      obtain ⟨w, doing⟩ := done
      cases doing with
      | deed d => exact ih
      | register store hook =>
          refine List.pairwise_cons.mpr ⟨fun r hr hkind hfirst => ?_, ih⟩
          have hmarked := (isMarked_step kindOf x w (.register store hook)
            (kindOf store)).mpr (.inr ⟨store, hook, rfl, rfl, hfirst⟩)
          exact hookRan_of_isMarked hmarked rest r hr hkind.symm

/-- **Every kind is prepared once in the life of a database.** -/
theorem seeded_once (kindOf : σ → Kind) (x : World σ) (run : List (Terms × Doing σ)) :
    SeededOnce kindOf x run where
  oneHook := oneHook run
  noEffect r hr := (report_of_mem run r hr).1
  oneFirst := by
    refine (noHookAfter run).imp_of_mem fun {r r'} _ hr' h hkind hboth => ?_
    have hran := (report_of_mem run r' hr').2 hboth.2
    rw [h hkind hboth.1] at hran
    cases hran
  marked := isMarked_after run
  noHook r hr hmarked := hookRan_of_isMarked hmarked run r hr rfl
  settled := by
    refine (noHookAfter run).imp_of_mem fun {r r'} _ hr' h hkind hfirst => ?_
    have hquiet := h hkind hfirst
    refine ⟨hquiet, (report_of_mem run r' hr').1 fun hagain => ?_⟩
    have hran := (report_of_mem run r' hr').2 hagain
    rw [hquiet] at hran
    cases hran

end World

end AccessStore
