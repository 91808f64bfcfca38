/-
What an action does to the content of a database.

A session carries more than content: an open transaction, the events told so far, and
what keeps its connection from reading or writing.  Nearly every property of the store
is about content alone, so this file cuts the rest away.  `Action.effect` is the result
of an action together with the content it leaves committed, for a connection that works
on given terms; the rest of the development speaks of effects only.

Effects compose because the statements are *plain*: they look at nothing but the content
they see and change nothing else, whether that content is committed or belongs to an open
transaction.  `effect_bind` is that fact, and `effect_atomic` is what it buys: a
transaction has the effect of its body if the body succeeds, and none at all if it fails.
-/
import AccessStore.Database.Program
import AccessStore.Proofs.Rows

namespace AccessStore

/-! ### Terms -/

/-- The terms on which a connection works: why it cannot read, and what keeps it from writing. -/
structure Terms where
  bar : Option StorageFault := none
  obstacle : Option Obstacle := none
  deriving DecidableEq, Repr

namespace Terms

/-- Nothing is in the way. -/
def free : Terms := {}

/-- A connection on these terms to a database, outside of any transaction. -/
def session (w : Terms) (db : Database) : Session :=
  { database := db, bar := w.bar, obstacle := w.obstacle }

/-- Why no transaction can be opened. -/
def barrier? (w : Terms) : Option StorageFault := (w.session .blank).barrier?

/-- Why nothing can be written. -/
def refusal? (w : Terms) : Option StorageFault := (w.session .blank).refusal?

/-- Why the rows of a kind cannot be read. -/
def readFault? (w : Terms) (db : Database) (kind : Kind) : Option StorageFault :=
  match w.bar with
  | some fault => some fault
  | none => if (db.table? kind).isSome then none else some .unknown

/-- Why the rows of a kind cannot be written. -/
def writeFault? (w : Terms) (db : Database) (kind : Kind) : Option StorageFault :=
  match w.readFault? db kind with
  | some fault => some fault
  | none => w.refusal?

/-- Why no kind can be marked. -/
def markFault? (w : Terms) (db : Database) : Option StorageFault :=
  match w.bar with
  | some fault => some fault
  | none => if db.markers.isSome then w.refusal? else some .unknown

/-- On free terms what can be read can be written. -/
theorem writeFault?_eq_free (db : Database) (kind : Kind) :
    free.writeFault? db kind = free.readFault? db kind := by
  unfold writeFault?
  split <;> simp_all [refusal?, session, free, Session.refusal?]

/-- Putting a row keeps nobody from writing. -/
theorem writeFault?_put (w : Terms) {db : Database} {kind : Kind} {t : Table}
    (h : db.table? kind = some t) (key : Key) (row : Row) (other : Kind) :
    w.writeFault? (db.put kind key row) other = w.writeFault? db other := by
  have htable : ((db.put kind key row).table? other).isSome = (db.table? other).isSome := by
    rw [Database.put_eq h, Database.table?_setTable]
    split
    · rename_i hother
      rw [hother, h]
      rfl
    · rfl
  rw [writeFault?, writeFault?, readFault?, readFault?, htable]

/-- What can be written can be read. -/
theorem readFault?_of_writeFault? {w : Terms} {db : Database} {kind : Kind}
    (h : w.writeFault? db kind = none) : w.readFault? db kind = none := by
  unfold writeFault? at h
  split at h
  · simp at h
  · assumption

/-- Rows that can be read are in a table. -/
theorem table?_of_readFault? {w : Terms} {db : Database} {kind : Kind}
    (h : w.readFault? db kind = none) : ∃ t, db.table? kind = some t := by
  unfold readFault? at h
  split at h
  · simp at h
  · split at h
    · exact Option.isSome_iff_exists.mp ‹_›
    · simp at h

theorem table?_of_writeFault? {w : Terms} {db : Database} {kind : Kind}
    (h : w.writeFault? db kind = none) : ∃ t, db.table? kind = some t :=
  table?_of_readFault? (readFault?_of_writeFault? h)

end Terms

namespace Session

/-- The terms of a session's connection. -/
def terms (s : Session) : Terms := ⟨s.bar, s.obstacle⟩

/-- A transaction is open only on terms that allow one. -/
def Sound (s : Session) : Prop := s.transaction.isSome → s.terms.barrier? = none

/-- The session once it sees other content and has told more events. -/
def onward (s : Session) (db : Database) (told : List Event) : Session :=
  { s.setView db with journal := s.journal ++ told }

variable (s : Session) (db : Database) (told : List Event)

@[simp] theorem terms_onward : (s.onward db told).terms = s.terms := by
  cases h : s.transaction <;> simp [onward, setView, terms, h]

@[simp] theorem view_onward : (s.onward db told).view = db := by
  cases h : s.transaction <;> simp [onward, setView, view, h]

@[simp] theorem isSome_transaction_onward :
    (s.onward db told).transaction.isSome = s.transaction.isSome := by
  cases h : s.transaction <;> simp [onward, setView, h]

@[simp] theorem onward_onward (db' : Database) (told' : List Event) :
    (s.onward db told).onward db' told' = s.onward db' (told ++ told') := by
  cases h : s.transaction <;> simp [onward, setView, h]

@[simp] theorem onward_nil : s.onward s.view [] = s := by
  obtain ⟨_, transaction, _, _, _⟩ := s
  cases transaction <;> simp [onward, setView, view]

theorem onward_eq_setView : s.onward db [] = s.setView db := by
  cases h : s.transaction <;> simp [onward, setView, h]

variable {s}

theorem Sound.onward (hs : s.Sound) : (s.onward db told).Sound := by
  intro h
  rw [terms_onward]
  exact hs (by simpa using h)

/-- In an open transaction nothing is refused that was not refused before it. -/
theorem Sound.refusal?_eq (hs : s.Sound) : s.refusal? = s.terms.refusal? := by
  obtain ⟨database, transaction, bar, obstacle, journal⟩ := s
  cases transaction with
  | none => rfl
  | some content =>
      have hb := hs rfl
      cases bar <;> cases obstacle with
      | none => rfl
      | some o => cases o <;> first | rfl | simp [terms, Terms.barrier?, Terms.session, barrier?] at hb

end Session

namespace Terms

variable (w : Terms) (db : Database)

theorem sound_session : (w.session db).Sound := fun h => by simp [session] at h

@[simp] theorem database_onward (db' : Database) (told : List Event) :
    ((w.session db).onward db' told).database = db' := rfl

end Terms

/-! ### Effects -/

/-- A result and the content that is left. -/
structure Outcome (ε α : Type) where
  result : Except ε α
  database : Database

namespace Outcome

variable {ε δ α β : Type}

/-- Go on from a result with the content that is left. -/
def andThen (o : Outcome ε α) (f : α → Database → Outcome ε β) : Outcome ε β :=
  match o.result with
  | .ok a => f a o.database
  | .error e => ⟨.error e, o.database⟩

/-- Go on from a failure with the content that is left. -/
def orElse (o : Outcome ε α) (f : ε → Database → Outcome ε α) : Outcome ε α :=
  match o.result with
  | .ok _ => o
  | .error e => f e o.database

/-- What becomes of an outcome when it ends a transaction that was opened on a database. -/
def settle (o : Outcome ε α) (before : Database) : Outcome ε α :=
  match o.result with
  | .ok _ => o
  | .error _ => { o with database := before }

/-- The failure in other terms. -/
def mapError (f : ε → δ) (o : Outcome ε α) : Outcome δ α := ⟨o.result.mapError f, o.database⟩

/-- If it is a failure, the content is still what it was. -/
def Harmless (o : Outcome ε α) (before : Database) : Prop :=
  ∀ e, o.result = .error e → o.database = before

variable (a : α) (e : ε) (db : Database)

@[simp] theorem andThen_ok (f : α → Database → Outcome ε β) :
    andThen ⟨.ok a, db⟩ f = f a db := rfl

@[simp] theorem andThen_error (f : α → Database → Outcome ε β) :
    andThen ⟨.error e, db⟩ f = ⟨.error e, db⟩ := rfl

@[simp] theorem orElse_ok (f : ε → Database → Outcome ε α) :
    orElse ⟨.ok a, db⟩ f = ⟨.ok a, db⟩ := rfl

@[simp] theorem orElse_error (f : ε → Database → Outcome ε α) :
    orElse ⟨.error e, db⟩ f = f e db := rfl

@[simp] theorem settle_ok (before : Database) :
    (⟨.ok a, db⟩ : Outcome ε α).settle before = ⟨.ok a, db⟩ := rfl

@[simp] theorem settle_error (before : Database) :
    (⟨.error e, db⟩ : Outcome ε α).settle before = ⟨.error e, before⟩ := rfl

@[simp] theorem mapError_ok (f : ε → δ) :
    (⟨.ok a, db⟩ : Outcome ε α).mapError f = ⟨.ok a, db⟩ := rfl

@[simp] theorem mapError_error (f : ε → δ) :
    (⟨.error e, db⟩ : Outcome ε α).mapError f = ⟨.error (f e), db⟩ := rfl

/-- What succeeds in two steps has succeeded in each. -/
theorem andThen_eq_ok {o : Outcome ε α} {f : α → Database → Outcome ε β} {b : β}
    {db : Database} :
    o.andThen f = ⟨.ok b, db⟩ ↔ ∃ a db₁, o = ⟨.ok a, db₁⟩ ∧ f a db₁ = ⟨.ok b, db⟩ := by
  obtain ⟨result, db₀⟩ := o
  cases result with
  | ok a =>
      constructor
      · intro h
        exact ⟨a, db₀, rfl, h⟩
      · rintro ⟨_, _, h, hf⟩
        cases h
        exact hf
  | error e => simp

theorem mapError_eq_ok {f : ε → δ} {o : Outcome ε α} {a : α} {db : Database} :
    o.mapError f = ⟨.ok a, db⟩ ↔ o = ⟨.ok a, db⟩ := by
  obtain ⟨result, db₀⟩ := o
  cases result with
  | ok a => simp
  | error e => simp

theorem harmless_same (result : Except ε α) (db : Database) :
    Harmless ⟨result, db⟩ db := fun _ _ => rfl

theorem harmless_ok (a : α) (db before : Database) :
    (⟨.ok a, db⟩ : Outcome ε α).Harmless before := fun _ h => by simp at h

/-- A failure has left the content as it was. -/
theorem Harmless.database_eq {o : Outcome ε α} {before after : Database} {e : ε}
    (h : o.Harmless before) (ho : o = ⟨.error e, after⟩) : after = before := by
  rw [ho] at h
  exact h e rfl

/-- Failures told in other terms do no more harm. -/
theorem Harmless.mapError {o : Outcome ε α} {before : Database} (h : o.Harmless before)
    (f : ε → δ) : (o.mapError f).Harmless before := by
  intro e he
  obtain ⟨result, db⟩ := o
  cases result with
  | ok a => simp at he
  | error e' => exact h e' rfl

/-- A failure of the first step or of the second one. -/
theorem Harmless.andThen {o : Outcome ε α} {before : Database} (h : o.Harmless before)
    {f : α → Database → Outcome ε β} (hf : ∀ a db, o = ⟨.ok a, db⟩ → (f a db).Harmless before) :
    (o.andThen f).Harmless before := by
  obtain ⟨result, db⟩ := o
  cases result with
  | ok a => exact hf a db rfl
  | error e => exact fun _ _ => h e rfl

/-- What a failed body did is given up at the end of its transaction. -/
theorem harmless_settle (o : Outcome ε α) (before : Database) :
    (o.settle before).Harmless before := by
  intro e he
  obtain ⟨result, db⟩ := o
  cases result with
  | ok a => simp at he
  | error e' => rfl

end Outcome

namespace Session

variable {ε α : Type}

/-- How a session goes on from an outcome. -/
def resume (s : Session) (told : List Event) (o : Outcome ε α) : EStateM.Result ε Session α :=
  match o.result with
  | .ok a => .ok a (s.onward o.database told)
  | .error e => .error e (s.onward o.database told)

end Session

namespace Action

variable {ε δ α β : Type}

/-- The result of an action on a database and the content it leaves committed. -/
def effect (action : Action ε α) (w : Terms) (db : Database) : Outcome ε α :=
  match action (w.session db) with
  | .ok a s => ⟨.ok a, s.database⟩
  | .error e s => ⟨.error e, s.database⟩

/-- The action looks at nothing but the content that the session sees, and besides telling events
it changes nothing else. -/
def Plain (action : Action ε α) : Prop :=
  ∀ s : Session, s.Sound → ∃ told, action s = s.resume told (action.effect s.terms s.view)

/-- An action that goes on as `o` says has the effect `o`. -/
theorem effect_of_resume {action : Action ε α} {w : Terms} {db : Database} {told : List Event}
    {o : Outcome ε α} (h : action (w.session db) = (w.session db).resume told o) :
    action.effect w db = o := by
  obtain ⟨result, db'⟩ := o
  cases result <;> simp [effect, h, Session.resume]

/-- To show that an action is plain, and what its effect is, find out how it goes on from any
session. -/
theorem plain_of_resume {action : Action ε α} (f : Terms → Database → Outcome ε α)
    (h : ∀ s : Session, s.Sound → ∃ told, action s = s.resume told (f s.terms s.view)) :
    action.Plain ∧ ∀ w db, action.effect w db = f w db := by
  have heffect : ∀ w db, action.effect w db = f w db := by
    intro w db
    obtain ⟨told, ht⟩ := h (w.session db) (w.sound_session db)
    exact effect_of_resume ht
  refine ⟨fun s hs => ?_, heffect⟩
  obtain ⟨told, ht⟩ := h s hs
  exact ⟨told, by rw [ht, heffect]⟩

/-! ### Composing effects -/

theorem plain_pure (a : α) : (pure a : Action ε α).Plain := by
  intro s _
  have hresume : s.resume [] (⟨.ok a, s.view⟩ : Outcome ε α) = .ok a s := by
    simp [Session.resume]
  exact ⟨[], hresume.symm⟩

@[simp] theorem effect_pure (a : α) (w : Terms) (db : Database) :
    (pure a : Action ε α).effect w db = ⟨.ok a, db⟩ := rfl

theorem plain_throw (e : ε) : (throw e : Action ε α).Plain := by
  intro s _
  have hresume : s.resume [] (⟨.error e, s.view⟩ : Outcome ε α) = .error e s := by
    simp [Session.resume]
  exact ⟨[], hresume.symm⟩

@[simp] theorem effect_throw (e : ε) (w : Terms) (db : Database) :
    (throw e : Action ε α).effect w db = ⟨.error e, db⟩ := rfl

theorem plain_ofExcept (result : Except ε α) : (ofExcept result).Plain := by
  cases result with
  | ok a => exact plain_pure a
  | error e => exact plain_throw e

@[simp] theorem effect_ofExcept (result : Except ε α) (w : Terms) (db : Database) :
    (ofExcept result).effect w db = ⟨result, db⟩ := by
  cases result <;> rfl

private theorem plain_and_effect_bind {action : Action ε α} {next : α → Action ε β}
    (ha : action.Plain) (hn : ∀ a, (next a).Plain) :
    (action >>= next).Plain ∧ ∀ w db, (action >>= next).effect w db
      = (action.effect w db).andThen fun a db => (next a).effect w db := by
  refine plain_of_resume
    (fun w db => (action.effect w db).andThen fun a db => (next a).effect w db) fun s hs => ?_
  obtain ⟨told, ht⟩ := ha s hs
  rcases ho : action.effect s.terms s.view with ⟨result, db⟩
  rw [ho] at ht
  cases result with
  | error e => exact ⟨told, by simp [bind, EStateM.bind, ht, Session.resume]⟩
  | ok a =>
      -- The second action starts where the first one left the session.
      obtain ⟨told', ht'⟩ := hn a (s.onward db told) (hs.onward db told)
      rw [Session.terms_onward, Session.view_onward] at ht'
      refine ⟨told ++ told', ?_⟩
      rcases ho' : (next a).effect s.terms db with ⟨result', db'⟩
      rw [ho'] at ht'
      cases result' <;> simp [bind, EStateM.bind, ht, ht', Session.resume, ho']

theorem plain_bind {action : Action ε α} {next : α → Action ε β} (ha : action.Plain)
    (hn : ∀ a, (next a).Plain) : (action >>= next).Plain :=
  (plain_and_effect_bind ha hn).1

/-- One plain action after another has the effects of both, one after the other. -/
theorem effect_bind {action : Action ε α} {next : α → Action ε β} (ha : action.Plain)
    (hn : ∀ a, (next a).Plain) (w : Terms) (db : Database) :
    (action >>= next).effect w db
      = (action.effect w db).andThen fun a db => (next a).effect w db :=
  (plain_and_effect_bind ha hn).2 w db

/-- What is made of a result in the end has no effect of its own. -/
theorem effect_bind_pure (action : Action ε α) (f : α → β) (w : Terms) (db : Database) :
    (action >>= fun a => pure (f a)).effect w db
      = (action.effect w db).andThen fun a db => ⟨.ok (f a), db⟩ := by
  rcases ha : action (w.session db) with ⟨a, s⟩ | ⟨e, s⟩ <;>
    simp [effect, bind, EStateM.bind, pure, EStateM.pure, ha]

theorem effect_mapError (f : ε → δ) (action : Action ε α) (w : Terms) (db : Database) :
    (action.mapError f).effect w db = (action.effect w db).mapError f := by
  simp only [effect, mapError]
  cases action (w.session db) <;> rfl

theorem plain_mapError (f : ε → δ) {action : Action ε α} (ha : action.Plain) :
    (action.mapError f).Plain := by
  intro s hs
  obtain ⟨told, ht⟩ := ha s hs
  refine ⟨told, ?_⟩
  rw [effect_mapError]
  rcases ho : action.effect s.terms s.view with ⟨result, db⟩
  rw [ho] at ht
  cases result <;>
    · rw [mapError, ht]
      rfl

theorem tryCatch_apply (body : Action ε α) (handle : ε → Action ε α) (s : Session) :
    tryCatch body handle s = match body s with
      | .ok a s => .ok a s
      | .error e s => handle e s := by
  show EStateM.tryCatch body handle s = _
  delta EStateM.tryCatch
  cases body s <;> rfl

private theorem plain_and_effect_tryCatch {body : Action ε α} {handle : ε → Action ε α}
    (hb : body.Plain) (hh : ∀ e, (handle e).Plain) :
    (tryCatch body handle).Plain ∧ ∀ w db, (tryCatch body handle).effect w db
      = (body.effect w db).orElse fun e db => (handle e).effect w db := by
  refine plain_of_resume
    (fun w db => (body.effect w db).orElse fun e db => (handle e).effect w db) fun s hs => ?_
  obtain ⟨told, ht⟩ := hb s hs
  rcases ho : body.effect s.terms s.view with ⟨result, db⟩
  rw [ho] at ht
  cases result with
  | ok a => exact ⟨told, by simp [tryCatch_apply, ht, Session.resume]⟩
  | error e =>
      obtain ⟨told', ht'⟩ := hh e (s.onward db told) (hs.onward db told)
      rw [Session.terms_onward, Session.view_onward] at ht'
      refine ⟨told ++ told', ?_⟩
      rcases ho' : (handle e).effect s.terms db with ⟨result', db'⟩
      rw [ho'] at ht'
      cases result' <;> simp [tryCatch_apply, ht, ht', Session.resume, ho']

theorem plain_tryCatch {body : Action ε α} {handle : ε → Action ε α} (hb : body.Plain)
    (hh : ∀ e, (handle e).Plain) : (tryCatch body handle).Plain :=
  (plain_and_effect_tryCatch hb hh).1

theorem effect_tryCatch {body : Action ε α} {handle : ε → Action ε α} (hb : body.Plain)
    (hh : ∀ e, (handle e).Plain) (w : Terms) (db : Database) :
    (tryCatch body handle).effect w db
      = (body.effect w db).orElse fun e db => (handle e).effect w db :=
  (plain_and_effect_tryCatch hb hh).2 w db

theorem plain_tell (event : Event) : (tell event : Action ε Unit).Plain := by
  intro s _
  refine ⟨[event], ?_⟩
  obtain ⟨_, transaction, _, _, _⟩ := s
  cases transaction <;> rfl

@[simp] theorem effect_tell (event : Event) (w : Terms) (db : Database) :
    (tell event : Action ε Unit).effect w db = ⟨.ok (), db⟩ := rfl

/-! ### Transactions -/

/-- How a session outside of any transaction goes on from one. -/
theorem atomic_apply (refused : StorageFault → ε) {body : Action ε α} (hb : body.Plain) {s : Session}
    (hs : s.transaction = none) :
    ∃ told, atomic refused body s = s.resume told (match s.terms.barrier? with
      | some fault => ⟨.error (refused fault), s.database⟩
      | none => (body.effect s.terms s.database).settle s.database) := by
  obtain ⟨db, transaction, bar, obstacle, journal⟩ := s
  obtain rfl : transaction = none := hs
  generalize hw : Terms.mk bar obstacle = w
  have hterms : (Session.mk db none bar obstacle journal).terms = w := hw
  have hbegin : begin ⟨db, none, bar, obstacle, journal⟩ = match w.barrier? with
      | some fault => .error fault ⟨db, none, bar, obstacle, journal⟩
      | none => .ok () ⟨db, some db, bar, obstacle, journal⟩ := by
    rw [← hw]
    rfl
  rw [hterms]
  cases hbarrier : w.barrier? with
  | some fault =>
      refine ⟨[], ?_⟩
      simp [atomic, bind, EStateM.bind, mapError, hbegin, hbarrier, Session.resume, Session.onward,
        Session.setView]
  | none =>
      -- The body runs in a session whose open transaction has the committed content.
      have hopened : (Session.mk db (some db) bar obstacle journal).terms = w := hw
      obtain ⟨told, ht⟩ := hb ⟨db, some db, bar, obstacle, journal⟩ fun _ => by rw [hopened, hbarrier]
      rw [hopened, show (Session.mk db (some db) bar obstacle journal).view = db from rfl] at ht
      refine ⟨told, ?_⟩
      rcases ho : body.effect w db with ⟨result, db'⟩
      rw [ho] at ht
      cases result with
      | ok a =>
          have hcommit : commit ⟨db, some db', bar, obstacle, journal ++ told⟩
              = .ok () ⟨db', none, bar, obstacle, journal ++ told⟩ := rfl
          simp [atomic, bind, EStateM.bind, mapError, hbegin, hbarrier, tryCatch_apply, ht,
            Session.resume, hcommit, pure, EStateM.pure, Session.onward, Session.setView]
      | error e =>
          have hrollback : rollback ⟨db, some db', bar, obstacle, journal ++ told⟩
              = .ok () ⟨db, none, bar, obstacle, journal ++ told⟩ := rfl
          have hthrow (s : Session) : (throw e : Action ε α) s = .error e s := rfl
          simp [atomic, bind, EStateM.bind, mapError, hbegin, hbarrier, tryCatch_apply, ht,
            Session.resume, hrollback, hthrow, Session.onward, Session.setView]

/-- **A transaction has the effect of its body, or none.**  What a failed body did is not
committed, and what it failed with is told. -/
theorem effect_atomic (refused : StorageFault → ε) {body : Action ε α} (hb : body.Plain)
    (w : Terms) (db : Database) :
    (atomic refused body).effect w db = match w.barrier? with
      | some fault => ⟨.error (refused fault), db⟩
      | none => (body.effect w db).settle db := by
  obtain ⟨told, ht⟩ := atomic_apply refused hb (s := w.session db) rfl
  exact effect_of_resume ht

/-- So a session goes on from a transaction by its effect, though a transaction is not plain. -/
theorem atomic_resume (refused : StorageFault → ε) {body : Action ε α} (hb : body.Plain) {s : Session}
    (hs : s.transaction = none) :
    ∃ told, atomic refused body s
      = s.resume told ((atomic refused body).effect s.terms s.database) := by
  rw [effect_atomic refused hb]
  exact atomic_apply refused hb hs

end Action

namespace Program

variable {ε δ α : Type}

/-! ### Programs

A program's effect is that of its steps, each on what the one before it left.  Nobody
else comes in between, so this is what running the program at a stretch does, as long as
its steps are plain: `Plain.effect_run`.
-/

/-- The result of a program and the content it leaves, if nobody comes in between. -/
def effect : Program ε α → Terms → Database → Outcome ε α
  | done result, _, db => ⟨result, db⟩
  | step action next, w, db => (action.effect w db).andThen fun b db => (next b).effect w db

/-- Every step of the program is plain. -/
inductive Plain : Program ε α → Prop
  | done (result : Except ε α) : Plain (done result)
  | step {β : Type} {action : Action ε β} {next : β → Program ε α} (ha : action.Plain)
      (hn : ∀ b, Plain (next b)) : Plain (step action next)

variable {β : Type}

@[simp] theorem effect_pure (a : α) (w : Terms) (db : Database) :
    (pure a : Program ε α).effect w db = ⟨.ok a, db⟩ := rfl

@[simp] theorem effect_ofExcept (result : Except ε α) (w : Terms) (db : Database) :
    (ofExcept result).effect w db = ⟨result, db⟩ := rfl

@[simp] theorem effect_fail (e : ε) (w : Terms) (db : Database) :
    (fail e : Program ε α).effect w db = ⟨.error e, db⟩ := rfl

theorem effect_once (action : Action ε α) (w : Terms) (db : Database) :
    (once action).effect w db = action.effect w db := by
  show (action.effect w db).andThen (fun a db => ⟨.ok a, db⟩) = action.effect w db
  rcases action.effect w db with ⟨result, db'⟩
  cases result <;> rfl

theorem effect_bind (p : Program ε α) (f : α → Program ε β) (w : Terms) (db : Database) :
    (p >>= f).effect w db = (p.effect w db).andThen fun a db => (f a).effect w db := by
  induction p generalizing db with
  | done result => cases result <;> rfl
  | step action next ih =>
      show (action.effect w db).andThen (fun b db => (next b >>= f).effect w db) = _
      simp only [effect]
      rcases action.effect w db with ⟨result, db'⟩
      cases result with
      | ok b => exact ih b db'
      | error e => rfl

/-- What succeeds with something made of a result in the end has succeeded with the result. -/
theorem bind_pure_ok {p : Program ε α} {f : α → β} {b : β} {w : Terms} {db db' : Database} :
    (p >>= fun a => pure (f a)).effect w db = ⟨.ok b, db'⟩ ↔
      ∃ a, p.effect w db = ⟨.ok a, db'⟩ ∧ f a = b := by
  rw [effect_bind, Outcome.andThen_eq_ok]
  simp

/-- What is made of a result in the end cannot fail. -/
theorem bind_pure_harmless {p : Program ε α} (f : α → β) {w : Terms} {db before : Database}
    (hp : (p.effect w db).Harmless before) :
    ((p >>= fun a => pure (f a)).effect w db).Harmless before := by
  rw [effect_bind]
  exact hp.andThen fun a db' _ => Outcome.harmless_ok _ _ _

theorem effect_mapError (f : ε → δ) (p : Program ε α) (w : Terms) (db : Database) :
    (p.mapError f).effect w db = (p.effect w db).mapError f := by
  induction p generalizing db with
  | done result => rfl
  | step action next ih =>
      simp only [mapError, effect, Action.effect_mapError]
      rcases action.effect w db with ⟨result, db'⟩
      cases result with
      | ok b => exact ih b db'
      | error e => rfl

theorem plain_pure (a : α) : (pure a : Program ε α).Plain := .done _

theorem plain_fail (e : ε) : (fail e : Program ε α).Plain := .done _

theorem plain_ofExcept (result : Except ε α) : (ofExcept result).Plain := .done _

theorem plain_once {action : Action ε α} (ha : action.Plain) : (once action).Plain :=
  .step ha fun _ => .done _

theorem plain_bind {p : Program ε α} {f : α → Program ε β} (hp : p.Plain)
    (hf : ∀ a, (f a).Plain) : (p >>= f).Plain := by
  induction hp with
  | done result =>
      cases result with
      | ok a => exact hf a
      | error e => exact .done _
  | step ha _ ih => exact .step ha ih

theorem plain_mapError (f : ε → δ) {p : Program ε α} (hp : p.Plain) : (p.mapError f).Plain := by
  induction hp with
  | done result => exact .done _
  | step ha _ ih => exact .step (Action.plain_mapError f ha) ih

theorem Plain.run {p : Program ε α} (hp : p.Plain) : p.run.Plain := by
  induction hp with
  | done result => exact Action.plain_ofExcept result
  | step ha _ ih => exact Action.plain_bind ha ih

/-- Running a plain program at a stretch has its effect. -/
theorem Plain.effect_run {p : Program ε α} (hp : p.Plain) (w : Terms) (db : Database) :
    p.run.effect w db = p.effect w db := by
  induction hp generalizing db with
  | done result => exact Action.effect_ofExcept result w db
  | @step _ action next ha hn ih =>
      rw [run_step, Action.effect_bind ha fun b => (hn b).run, effect]
      exact congrArg _ (funext fun b => funext fun db => ih b db)

/-- A transaction is not plain, for there is none within another, but it can be the last step of
what is run at a stretch. -/
theorem effect_run_atomic (refused : StorageFault → ε) (p : Program ε α) (f : α → β) (w : Terms)
    (db : Database) :
    (atomic refused p >>= fun a => pure (f a)).run.effect w db
      = (atomic refused p >>= fun a => pure (f a)).effect w db := by
  rw [run_bind, atomic, run_once, effect_bind, effect_once]
  exact Action.effect_bind_pure _ f w db

theorem effect_atomic (refused : StorageFault → ε) {p : Program ε α} (hp : p.Plain) (w : Terms)
    (db : Database) :
    (atomic refused p).effect w db = match w.barrier? with
      | some fault => ⟨.error (refused fault), db⟩
      | none => (p.effect w db).settle db := by
  rw [atomic, effect_once, Action.effect_atomic refused hp.run, hp.effect_run]

theorem atomic_ok {refused : StorageFault → ε} {p : Program ε α} (hp : p.Plain) {w : Terms}
    {db db' : Database} {a : α} (hok : (atomic refused p).effect w db = ⟨.ok a, db'⟩) :
    p.effect w db = ⟨.ok a, db'⟩ := by
  rw [effect_atomic refused hp] at hok
  cases hw : w.barrier? with
  | some fault => simp [hw] at hok
  | none =>
      rcases ho : p.effect w db with ⟨result, db₁⟩
      cases result <;> simp_all

theorem atomic_harmless (refused : StorageFault → ε) {p : Program ε α} (hp : p.Plain) (w : Terms)
    (db : Database) : ((atomic refused p).effect w db).Harmless db := by
  rw [effect_atomic refused hp]
  cases w.barrier? with
  | some fault => exact Outcome.harmless_same _ _
  | none => exact Outcome.harmless_settle _ _

end Program

end AccessStore
