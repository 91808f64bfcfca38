/-
What is left of a call that is under way.

Most calls are one statement or one transaction, so nobody can come in between.  An
update looks at the version first and then writes, and a removal looks, deletes, and if
it missed looks once more.  What is left of such a call after some of its steps is a
program again, and `Call.IsRest` says which programs can be: whenever one is run to its
end, it does what the whole call would do if it were made only then, unless it finds that
the record was changed in the meantime, and gives up.

That a call starts as the rest of itself is `isRest_program`.  It stays one with every
step, because the only statement of a call that changes anything is its last.
-/
import AccessStore.Proofs.Calls

namespace AccessStore

namespace Program

variable {ε δ α β : Type}

/-- What is left of a program after its first step. -/
def rest (o : Outcome ε β) (next : β → Program ε α) : Program ε α :=
  match o.result with
  | .ok b => next b
  | .error e => done (.error e)

/-- The program has come to its end. -/
def IsDone : Program ε α → Prop
  | done _ => True
  | step _ _ => False

/-- The program has one step at most. -/
def IsBrief : Program ε α → Prop
  | done _ => True
  | step _ next => ∀ b, (next b).IsDone

theorem isDone_iff {p : Program ε α} : p.IsDone ↔ ∃ result, p = done result := by
  cases p with
  | done result => simp [IsDone]
  | step action next => simp [IsDone]

/-- A program goes on from its first step as what is left of it. -/
theorem effect_step (action : Action ε β) (next : β → Program ε α) (w : Terms) (db : Database) :
    (step action next).effect w db
      = (rest (action.effect w db) next).effect w (action.effect w db).database := by
  rw [effect, rest]
  rcases action.effect w db with ⟨result, db'⟩
  cases result <;> rfl

theorem isBrief_once (action : Action ε α) : (once action).IsBrief := fun _ => trivial

theorem isDone_mapError (f : ε → δ) {p : Program ε α} (hp : p.IsDone) : (p.mapError f).IsDone := by
  cases p with
  | done result => trivial
  | step action next => exact hp

theorem isBrief_mapError (f : ε → δ) {p : Program ε α} (hp : p.IsBrief) :
    (p.mapError f).IsBrief := by
  cases p with
  | done result => trivial
  | step action next => exact fun b => isDone_mapError f (hp b)

theorem isDone_bind {p : Program ε α} {f : α → Program ε β} (hp : p.IsDone)
    (hf : ∀ a, (f a).IsDone) : (p >>= f).IsDone := by
  cases p with
  | done result =>
      cases result with
      | ok a => exact hf a
      | error e => trivial
  | step action next => exact hp.elim

/-- What is decided in the end takes no step of its own. -/
theorem isBrief_bind {p : Program ε α} {f : α → Program ε β} (hp : p.IsBrief)
    (hf : ∀ a, (f a).IsDone) : (p >>= f).IsBrief := by
  cases p with
  | done result =>
      cases result with
      | ok a =>
          obtain ⟨result, hresult⟩ := isDone_iff.mp (hf a)
          show (f a).IsBrief
          rw [hresult]
          trivial
      | error e => trivial
  | step action next => exact fun b => isDone_bind (hp b) hf

theorem isBrief_ofExcept_bind {result : Except ε α} {f : α → Program ε β}
    (hf : ∀ a, (f a).IsBrief) : (ofExcept result >>= f).IsBrief := by
  cases result with
  | ok a => exact hf a
  | error e => trivial

end Program

/-! ### What is left of a call -/

namespace Call

variable {c : Call} {db : Database} {excuse : Database → Prop}
  {p : Program CallError Answer}

/-- The key of the record that a call is about, with its kind. -/
def target? : Call → Option (Kind × Key)
  | browse _ => none
  | get kind key => some (kind, key)
  | addUser user _ => some (.user, [user.id])
  | updateUser user _ => some (.user, [user.id])
  | removeUser id => some (.user, [id])
  | add r _ => some (r.kind, r.key)
  | update r _ => some (r.kind, r.key)
  | remove kind key _ => some (kind, key)

/-- The row of the record that a call is about. -/
def row? (c : Call) (db : Database) : Option Row :=
  c.target?.bind fun target => db.row? target.1 target.2

/-- Run from here, the program does what the whole call would do, or gives up without having changed
anything, for which there is an excuse. -/
def Completes (c : Call) (excuse : Database → Prop) (p : Program CallError Answer) (db : Database) :
    Prop :=
  p.effect .free db = c.program.effect .free db ∨
    (Stale (p.effect .free db).result ∧ (p.effect .free db).database = db ∧ excuse db)

/-- The program can be what is left of a call: it completes the call from anywhere, and until its
last step it changes nothing and only remembers what the call's row was.  Finding the row changed
later on excuses it. -/
def IsRest (c : Call) : (Database → Prop) → Program CallError Answer → Prop
  | _, .done _ => True
  | excuse, .step action next =>
      (∀ db, c.Completes excuse (.step action next) db) ∧
        ∀ db b db', action.effect .free db = ⟨.ok b, db'⟩ → (next b).IsDone ∨
          (db' = db ∧
            c.IsRest (fun later => excuse db ∨ excuse later ∨ c.row? db ≠ c.row? later) (next b))

theorem Completes.mono {excuse' : Database → Prop} (he : ∀ db, excuse db → excuse' db)
    (hp : c.Completes excuse p db) : c.Completes excuse' p db :=
  hp.imp_right fun h => ⟨h.1, h.2.1, he db h.2.2⟩

theorem IsRest.mono {excuse' : Database → Prop} (he : ∀ db, excuse db → excuse' db)
    (hp : c.IsRest excuse p) : c.IsRest excuse' p := by
  induction p generalizing excuse excuse' with
  | done result => trivial
  | step action next ih =>
      refine ⟨fun db => (hp.1 db).mono he, fun db b db' hstep => ?_⟩
      refine (hp.2 db b db' hstep).imp_right fun h => ⟨h.1, ih b (fun later => ?_) h.2⟩
      exact Or.imp (he db) (Or.imp_left (he later))

/-- A program of one step is the rest of a call that it completes. -/
theorem isRest_of_isBrief (hp : p.IsBrief) (hc : ∀ db, c.Completes excuse p db) :
    c.IsRest excuse p := by
  cases p with
  | done result => trivial
  | step action next => exact ⟨hc, fun db b db' _ => .inl (hp b)⟩

/-! ### Brief calls -/

theorem isBrief_read (kind : Kind) (key : Key) : (Records.read kind key).IsBrief := by
  refine Program.isBrief_bind (Program.isBrief_once _) fun found => ?_
  cases found with
  | none => trivial
  | some row =>
      refine Program.isDone_bind trivial fun r => ?_
      split <;> trivial

theorem isBrief_add (r : Record) : (Records.add r).IsBrief := by
  refine Program.isBrief_ofExcept_bind fun _ =>
    Program.isBrief_bind (Program.isBrief_once _) fun inserted => ?_
  cases inserted <;> trivial

theorem isBrief_write (h : Handle) (r : Record) : (Records.write h r).IsBrief := by
  refine Program.isBrief_ofExcept_bind fun _ => ?_
  split
  · trivial
  · refine Program.isBrief_bind (Program.isBrief_once _) fun updated => ?_
    cases updated <;> trivial

/-- The call is one statement or one transaction. -/
def IsSingle : Call → Prop
  | update _ _ | remove _ _ _ => False
  | _ => True

theorem isBrief_program (hc : c.IsSingle) : c.program.IsBrief := by
  cases c with
  | browse kind =>
      exact Program.isBrief_bind (Program.isBrief_mapError _
        (Program.isBrief_bind (Program.isBrief_once _) fun _ => trivial)) fun _ => trivial
  | get kind key =>
      exact Program.isBrief_bind (Program.isBrief_mapError _ (isBrief_read _ _)) fun _ => trivial
  | addUser user roles => exact Program.isBrief_bind (Program.isBrief_once _) fun _ => trivial
  | updateUser user roles => exact Program.isBrief_bind (Program.isBrief_once _) fun _ => trivial
  | removeUser id => exact Program.isBrief_bind (Program.isBrief_once _) fun _ => trivial
  | add r _ =>
      exact Program.isBrief_bind (Program.isBrief_mapError _ (isBrief_add r)) fun _ => trivial
  | update r plain => exact hc.elim
  | remove kind key plain => exact hc.elim

/-! ### Updates -/

theorem update_program {r : Record} {plain : r.kind ≠ .user} (hid : r.blankIdentity? = none) :
    (Call.update r plain).program
      = .step (((Action.select r.kind r.key).mapError .storage).mapError CallError.ofStore)
          fun row => match row with
            | none => .fail (.notFound r.kind r.key)
            | some row =>
                if isOutdated r ⟨row.version⟩ then .fail (.concurrentModification r.kind r.key)
                else records (Records.write ⟨r.key, ⟨row.version⟩⟩ r) >>= fun v => pure (.version v) := by
  simp only [program, updateRecord, Records.identified, hid]
  refine congrArg (Program.step _) (funext fun row => ?_)
  cases row with
  | none => rfl
  | some row =>
      show Program.bind (if isOutdated r ⟨row.version⟩ then _ else _ : Program CallError Version) _
        = if isOutdated r ⟨row.version⟩ then _ else _
      by_cases hv : isOutdated r ⟨row.version⟩
      · rw [if_pos hv, if_pos hv]
        rfl
      · rw [if_neg hv, if_neg hv]
        rfl

theorem completes_write {r : Record} {plain : r.kind ≠ .user} (hid : r.blankIdentity? = none)
    {row : Row} (hv : ¬ isOutdated r ⟨row.version⟩)
    (hexcuse : ∀ later, some row ≠ later.row? r.kind r.key → excuse later) (later : Database) :
    (Call.update r plain).Completes excuse
      (records (Records.write ⟨r.key, ⟨row.version⟩⟩ r) >>= fun v => pure (.version v)) later := by
  have hwhole : (Call.update r plain).program.effect .free later
      = ((updateRecord r).effect .free later).andThen fun v db => ⟨.ok (.version v), db⟩ :=
    Program.effect_bind _ _ _ _
  rw [Completes, hwhole, Program.effect_bind, effect_records, Records.effect_write,
    effect_updateRecord, hid]
  simp only [Program.effect_pure, ne_eq, not_true_eq_false, if_false, Terms.writeFault?_eq_free]
  cases hr : Terms.free.readFault? later r.kind with
  | some fault => exact .inl rfl
  | none =>
      cases hrow : later.row? r.kind r.key with
      | none => exact .inr ⟨⟨_, _, rfl⟩, rfl, hexcuse later (by simp [hrow])⟩
      | some row' =>
          by_cases hsame : row'.version = row.version
          · -- The version is still the one that was looked at, so a whole call goes on as well.
            left
            by_cases hpos : row.version + 1 ≤ 0 <;>
              simp [hsame, hv, hpos, Version.next, CallError.ofStore, CallError.ofStorage]
          · right
            simp only [Option.any_some, hsame, decide_false, Bool.false_eq_true, if_false]
            refine ⟨⟨_, _, rfl⟩, rfl, hexcuse later fun h => hsame ?_⟩
            rw [hrow] at h
            rw [Option.some.inj h]

theorem isRest_update (r : Record) (plain : r.kind ≠ .user) :
    (Call.update r plain).IsRest (fun _ => False) (Call.update r plain).program := by
  cases hid : r.blankIdentity? with
  | some blank =>
      simp only [program, updateRecord, Records.identified, hid]
      trivial
  | none =>
      rw [update_program hid]
      refine ⟨fun db => .inl (by rw [update_program hid]), fun db found db' hstep => ?_⟩
      rw [Action.effect_mapError, Action.effect_mapError, Action.effect_select] at hstep
      cases hr : Terms.free.readFault? db r.kind with
      | some fault => simp [hr] at hstep
      | none =>
          simp only [hr, Outcome.mapError_ok, Outcome.mk.injEq, Except.ok.injEq] at hstep
          obtain ⟨rfl, rfl⟩ := hstep
          cases hrow : db.row? r.kind r.key with
          | none => exact .inl trivial
          | some row =>
              dsimp only
              split
              · exact .inl trivial
              · rename_i hv
                refine .inr ⟨rfl, isRest_of_isBrief ?_ ?_⟩
                · exact Program.isBrief_bind (Program.isBrief_mapError _ (isBrief_write _ _))
                    fun _ => trivial
                · refine completes_write hid hv fun later hlater => .inr (.inr ?_)
                  rw [← hrow] at hlater
                  exact hlater

/-! ### Removals -/

theorem remove_program (kind : Kind) (key : Key) (plain : kind ≠ .user) :
    (Call.remove kind key plain).program
      = .step (((Action.select kind key).mapError .storage).mapError CallError.ofStore)
          fun row => match row with
            | none => pure (.removed false)
            | some row =>
                records (Records.deleteAt kind ⟨key, ⟨row.version⟩⟩) >>= fun b => pure (.removed b) := by
  refine congrArg (Program.step _) (funext fun row => ?_)
  cases row <;> rfl

/-- What is left of a removal that has looked at the version. -/
theorem deleteAt_program (kind : Kind) (h : Handle) :
    (records (Records.deleteAt kind h) >>= fun b => pure (Answer.removed b))
      = .step (((Action.delete kind h.key h.version.number).mapError .storage).mapError
            CallError.ofStore)
          fun deleted => if deleted then pure (.removed true)
            else .step (((Action.select kind h.key).mapError .storage).mapError CallError.ofStore)
              fun row => match row with
                | some _ => .fail (.concurrentModification kind h.key)
                | none => pure (.removed false) := by
  refine congrArg (Program.step _) (funext fun deleted => ?_)
  cases deleted with
  | true => rfl
  | false =>
      refine congrArg (Program.step _) (funext fun row => ?_)
      cases row <;> rfl

theorem effect_remove (kind : Kind) (key : Key) (plain : kind ≠ .user) (db : Database) :
    (Call.remove kind key plain).program.effect .free db
      = match Terms.free.readFault? db kind with
        | some fault => ⟨.error (CallError.ofStorage fault), db⟩
        | none =>
            if (db.row? kind key).isSome then ⟨.ok (.removed true), db.drop kind key⟩
            else ⟨.ok (.removed false), db⟩ := by
  rw [program, Program.effect_bind, effect_records, Records.effect_delete,
    Terms.writeFault?_eq_free]
  cases Terms.free.readFault? db kind with
  | some fault => rfl
  | none => by_cases hrow : (db.row? kind key).isSome <;> simp [hrow]

theorem completes_deleteAt {kind : Kind} {key : Key} (plain : kind ≠ .user) {row : Row}
    (hexcuse : ∀ later, some row ≠ later.row? kind key → excuse later) (later : Database) :
    (Call.remove kind key plain).Completes excuse
      (records (Records.deleteAt kind ⟨key, ⟨row.version⟩⟩) >>= fun b => pure (.removed b)) later := by
  rw [Completes, effect_remove, Program.effect_bind, effect_records, Records.effect_deleteAt,
    Terms.writeFault?_eq_free]
  cases hr : Terms.free.readFault? later kind with
  | some fault => exact .inl rfl
  | none =>
      cases hrow : later.row? kind key with
      | none => exact .inl (by simp)
      | some row' =>
          by_cases hsame : row'.version = row.version
          · exact .inl (by simp [hsame])
          · right
            simp only [Option.any_some, hsame, decide_false, Bool.false_eq_true, if_false,
              Option.isSome_some, if_true]
            refine ⟨⟨_, _, rfl⟩, rfl, hexcuse later fun h => hsame ?_⟩
            rw [hrow] at h
            rw [Option.some.inj h]

/-- A removal that found another version may look once more, and give up or find nothing. -/
theorem completes_recheck {kind : Kind} {key : Key} {plain : kind ≠ .user}
    (hexcuse : ∀ later, excuse later) (later : Database) :
    (Call.remove kind key plain).Completes excuse
      (.step (((Action.select kind key).mapError .storage).mapError CallError.ofStore)
        fun row => match row with
          | some _ => .fail (.concurrentModification kind key)
          | none => pure (.removed false)) later := by
  rw [Completes, effect_remove, Program.effect, Action.effect_mapError, Action.effect_mapError,
    Action.effect_select]
  cases Terms.free.readFault? later kind with
  | some fault => exact .inl rfl
  | none =>
      cases hrow : later.row? kind key with
      | none => exact .inl rfl
      | some row => exact .inr ⟨⟨_, _, rfl⟩, rfl, hexcuse later⟩

theorem isRest_deleteAt {kind : Kind} {key : Key} {plain : kind ≠ .user} {row : Row}
    (hexcuse : ∀ later, some row ≠ later.row? kind key → excuse later) :
    (Call.remove kind key plain).IsRest excuse
      (records (Records.deleteAt kind ⟨key, ⟨row.version⟩⟩) >>= fun b => pure (.removed b)) := by
  have hcompletes := completes_deleteAt plain hexcuse
  rw [deleteAt_program] at hcompletes ⊢
  refine ⟨hcompletes, fun db deleted db' hstep => ?_⟩
  cases deleted with
  | true => exact .inl trivial
  | false =>
      rw [Action.effect_mapError, Action.effect_mapError, Outcome.mapError_eq_ok,
        Outcome.mapError_eq_ok, Action.effect_delete] at hstep
      cases hw : Terms.free.writeFault? db kind with
      | some fault => simp [hw] at hstep
      | none =>
          by_cases hrow : (db.row? kind key).any (·.version = row.version)
          · simp [hw, hrow] at hstep
          · simp only [hw, hrow, Bool.false_eq_true, if_false, Outcome.mk.injEq, true_and] at hstep
            refine .inr ⟨hstep.symm, isRest_of_isBrief ?_ ?_⟩
            · intro found
              cases found <;> trivial
            · -- Nothing was deleted, so the row is not what it was.
              refine completes_recheck fun later => .inl (hexcuse db fun h => hrow ?_)
              simp [← h]

theorem isRest_remove (kind : Kind) (key : Key) (plain : kind ≠ .user) :
    (Call.remove kind key plain).IsRest (fun _ => False) (Call.remove kind key plain).program := by
  rw [remove_program]
  refine ⟨fun db => .inl (by rw [remove_program]), fun db found db' hstep => ?_⟩
  rw [Action.effect_mapError, Action.effect_mapError, Outcome.mapError_eq_ok,
    Outcome.mapError_eq_ok, Action.effect_select] at hstep
  cases hr : Terms.free.readFault? db kind with
  | some fault => simp [hr] at hstep
  | none =>
      simp only [hr, Outcome.mk.injEq, Except.ok.injEq] at hstep
      obtain ⟨rfl, rfl⟩ := hstep
      cases hrow : db.row? kind key with
      | none => exact .inl trivial
      | some row =>
          refine .inr ⟨rfl, isRest_deleteAt fun later hlater => .inr (.inr ?_)⟩
          rw [← hrow] at hlater
          exact hlater

/-- **A call that has just begun is the rest of itself.** -/
theorem isRest_program (c : Call) : c.IsRest (fun _ => False) c.program := by
  cases c with
  | update r plain => exact isRest_update r plain
  | remove kind key plain => exact isRest_remove kind key plain
  | _ => exact isRest_of_isBrief (isBrief_program trivial) fun _ => .inl rfl

end Call

end AccessStore
