/-
Threads that register a kind with one store.

What a store remembers of registering its kind is behind a lock.  A thread takes the lock
and looks.  The first to find that nothing was done is admitted, and gives the lock back
while it prepares the kind.  Who looks in the meantime goes to sleep, and looks again once
woken, which may also happen without a cause.  The thread that was admitted takes the lock
once more, notes how its attempt went and wakes all that sleep.  A hook that panics is
noted like any other failure, on the way out.

There may be any number of threads, each with a hook of its own, their steps may come in
any order, and the database may be changed by others in between.  What no step undoes is
`Orderly`: the lock is held by the thread that is inside, and either no thread has been
admitted or one has, which is then the one that leads.  All else follows from how far that
thread is.
-/
import Mathlib.Logic.Function.Basic
import Mathlib.Logic.Relation
import AccessStore.Proofs.SeedingOnce

namespace AccessStore

namespace Registering

/-- How far a thread is with registering. -/
inductive Phase
  /-- It is about to take the lock, to look. -/
  | arriving
  /-- It has the lock and is about to look. -/
  | looking
  /-- It sleeps until it is woken. -/
  | waiting
  /-- It was admitted and is about to prepare the kind. -/
  | admitted
  /-- It has prepared the kind or failed to, and is about to take the lock, to note it. -/
  | attempted (outcome : Except Unprepared Bool)
  /-- It has the lock and is about to note how it went. -/
  | noting (outcome : Except Unprepared Bool)
  /-- Its call is over. -/
  | returned (result : Except (Stop StoreError) Bool)

namespace Phase

/-- The thread has the lock. -/
def isInside : Phase → Bool
  | looking | noting _ => true
  | _ => false

/-- Where a thread is once those that sleep were woken. -/
def woken : Phase → Phase
  | waiting => arriving
  | phase => phase

/-- The thread has not been admitted.  It may sleep as long as there is no answer to be had, and if
its call is over it was given the answer. -/
def IsAside (answer? : Option (Except (Stop StoreError) Bool)) : Phase → Prop
  | arriving | looking => True
  | waiting => answer? = none
  | returned result => answer? = some result
  | _ => False

variable {phase : Phase} {answer? : Option (Except (Stop StoreError) Bool)}

theorem IsAside.woken (h : phase.IsAside none) : phase.woken.IsAside answer? := by
  cases phase with
  | arriving => trivial
  | looking => trivial
  | waiting => trivial
  | returned result => cases h
  | admitted => exact h
  | attempted outcome => exact h
  | noting outcome => exact h

@[simp] theorem isInside_woken (phase : Phase) : phase.woken.isInside = phase.isInside := by
  cases phase <;> rfl

end Phase

end Registering

/-- Threads that register a kind with one store, all on one database. -/
structure Registering (ι : Type) where
  /-- What the store remembers; nothing is settled while a thread is preparing the kind. -/
  registration : Option Registration
  /-- Who has the lock. -/
  holder : Option ι
  phase : ι → Registering.Phase
  database : Database
  /-- Who was admitted, the latest first. -/
  admissions : List ι
  /-- Who made an attempt to prepare the kind and how it went, the latest first. -/
  attempts : List (ι × Except Unprepared Bool)

namespace Registering

variable {ι : Type}

/-- All threads are about to call, and the store has not registered its kind. -/
def opening (db : Database) : Registering ι where
  registration := some .fresh
  holder := none
  phase := fun _ => .arriving
  database := db
  admissions := []
  attempts := []

/-- What the store answers to a thread that looks, if the matter is settled. -/
def answer? (x : Registering ι) (kind : Kind) : Option (Except (Stop StoreError) Bool) :=
  x.registration.bind (·.settled? kind)

variable [DecidableEq ι]

/-- A thread is here now. -/
def put (x : Registering ι) (i : ι) (phase : Phase) : Registering ι :=
  { x with phase := Function.update x.phase i phase }

/-- A thread does its next step. -/
inductive Turn (kind : Kind) (hooks : ι → Hook) (x : Registering ι) (i : ι) : Registering ι → Prop
  /-- It takes the lock. -/
  | enter (hp : x.phase i = .arriving) (hfree : x.holder = none) :
      Turn kind hooks x i { x.put i .looking with holder := some i }
  /-- It finds nothing done and is to prepare the kind. -/
  | lead (hp : x.phase i = .looking) (hr : x.registration = some .fresh) :
      Turn kind hooks x i
        { x.put i .admitted with registration := none, holder := none, admissions := i :: x.admissions }
  /-- It finds another thread at work, gives the lock back and sleeps, all at once. -/
  | sleep (hp : x.phase i = .looking) (hr : x.registration = none) :
      Turn kind hooks x i { x.put i .waiting with holder := none }
  /-- It finds the matter settled. -/
  | answer {result : Except (Stop StoreError) Bool} (hp : x.phase i = .looking)
      (hr : x.answer? kind = some result) :
      Turn kind hooks x i { x.put i (.returned result) with holder := none }
  /-- It prepares the kind in one transaction, with the lock open. -/
  | attempt {result : Except Unprepared Bool} {db : Database} (w : Terms) (hp : x.phase i = .admitted)
      (hdone : (Registration.prepare kind (hooks i)).effect w x.database = ⟨result, db⟩) :
      Turn kind hooks x i
        { x.put i (.attempted result) with database := db, attempts := (i, result) :: x.attempts }
  /-- It takes the lock once more. -/
  | reenter {outcome : Except Unprepared Bool} (hp : x.phase i = .attempted outcome)
      (hfree : x.holder = none) :
      Turn kind hooks x i { x.put i (.noting outcome) with holder := some i }
  /-- It notes how it went, wakes all that sleep and gives the lock back. -/
  | note {outcome : Except Unprepared Bool} (hp : x.phase i = .noting outcome) :
      Turn kind hooks x i
        { x with
          registration := some (.after outcome)
          holder := none
          phase := Function.update (fun j => (x.phase j).woken) i
            (.returned (outcome.mapError Unprepared.stop)) }

/-- A thread does its next step, one that sleeps wakes without a cause, or the database is changed by
others. -/
inductive Step (kind : Kind) (hooks : ι → Hook) (x : Registering ι) : Registering ι → Prop
  | turn {y : Registering ι} (i : ι) (h : Turn kind hooks x i y) : Step kind hooks x y
  | wake (i : ι) (hp : x.phase i = .waiting) : Step kind hooks x (x.put i .arriving)
  | elsewhere (db : Database) : Step kind hooks x { x with database := db }

/-- What may come of it, step by step. -/
def Leads (kind : Kind) (hooks : ι → Hook) : Registering ι → Registering ι → Prop :=
  Relation.ReflTransGen (Step kind hooks)

variable {kind : Kind} {hooks : ι → Hook} {x y : Registering ι} {i j : ι} {phase : Phase}

@[simp] theorem phase_put_self : (x.put i phase).phase i = phase := by simp [put]

@[simp] theorem phase_put_ne (h : j ≠ i) : (x.put i phase).phase j = x.phase j := by
  simp [put, h]

/-! ### The lock -/

/-- The lock is held by the thread that is inside. -/
def Locked (x : Registering ι) : Prop := ∀ j, x.holder = some j ↔ (x.phase j).isInside

/-- A thread goes inside with the lock. -/
theorem Locked.take (h : x.Locked) (hfree : x.holder = none) (hy : y.holder = some i)
    (hphase : y.phase = Function.update x.phase i phase) (hinside : phase.isInside) : y.Locked := by
  intro j
  rw [hy, hphase]
  by_cases hj : j = i
  · simp [hj, hinside]
  · have hout := h j
    rw [hfree] at hout
    simpa [hj, Ne.symm hj] using hout

/-- The thread inside goes out and gives the lock back. -/
theorem Locked.release (h : x.Locked) (hi : (x.phase i).isInside) (hy : y.holder = none)
    (hself : (y.phase i).isInside = false)
    (hothers : ∀ j, j ≠ i → (y.phase j).isInside = (x.phase j).isInside) : y.Locked := by
  intro j
  rw [hy]
  by_cases hj : j = i
  · simp [hj, hself]
  · -- Two threads cannot be inside.
    have hout : (x.phase j).isInside = false := by
      refine Bool.eq_false_iff.mpr fun hin => ?_
      have hholder := (h i).mpr hi
      rw [(h j).mpr hin] at hholder
      exact hj (Option.some.inj hholder)
    simp [hothers j hj, hout]

/-- A thread outside goes on outside. -/
theorem Locked.outside (h : x.Locked) (hi : (x.phase i).isInside = false) (hy : y.holder = x.holder)
    (hphase : y.phase = Function.update x.phase i phase) (hout : phase.isInside = false) : y.Locked := by
  intro j
  rw [hy, hphase]
  by_cases hj : j = i
  · have hself := h i
    rw [hi] at hself
    simpa [hj, hout] using hself
  · simpa [hj] using h j

theorem Locked.turn (h : x.Locked) (hturn : Turn kind hooks x i y) : y.Locked := by
  cases hturn with
  | enter hp hfree => exact h.take hfree rfl rfl rfl
  | lead hp hr => exact h.release (by rw [hp]; rfl) rfl (by simp; rfl) fun j hj => by simp [hj]
  | sleep hp hr => exact h.release (by rw [hp]; rfl) rfl (by simp; rfl) fun j hj => by simp [hj]
  | answer hp hr => exact h.release (by rw [hp]; rfl) rfl (by simp; rfl) fun j hj => by simp [hj]
  | attempt w hp hdone => exact h.outside (by rw [hp]; rfl) rfl rfl rfl
  | reenter hp hfree => exact h.take hfree rfl rfl rfl
  | note hp => exact h.release (by rw [hp]; rfl) rfl (by simp; rfl) fun j hj => by simp [hj]

/-! ### The thread that leads -/

/-- No thread has been admitted. -/
structure Unopened (x : Registering ι) : Prop where
  registration : x.registration = some .fresh
  admissions : x.admissions = []
  attempts : x.attempts = []
  early : ∀ j, x.phase j = .arriving ∨ x.phase j = .looking

/-- How far the thread is that was admitted, what the store remembers, and which attempts were made. -/
inductive Charge (i : ι) : Phase → Option Registration → List (ι × Except Unprepared Bool) → Prop
  | admitted : Charge i .admitted none []
  | attempted (outcome : Except Unprepared Bool) : Charge i (.attempted outcome) none [(i, outcome)]
  | noting (outcome : Except Unprepared Bool) : Charge i (.noting outcome) none [(i, outcome)]
  | settled (outcome : Except Unprepared Bool) :
      Charge i (.returned (outcome.mapError Unprepared.stop)) (some (.after outcome)) [(i, outcome)]

/-- This thread was admitted, and no other. -/
structure Led (kind : Kind) (x : Registering ι) (i : ι) : Prop where
  admissions : x.admissions = [i]
  charge : Charge i (x.phase i) x.registration x.attempts
  aside : ∀ j, j ≠ i → (x.phase j).IsAside (x.answer? kind)

/-- A thread that has not been admitted moves on its own, if there is no admission to be had. -/
theorem Turn.aside (hturn : Turn kind hooks x j y) (haside : (x.phase j).IsAside (x.answer? kind))
    (hr : x.registration ≠ some .fresh) :
    y.registration = x.registration ∧ y.admissions = x.admissions ∧ y.attempts = x.attempts ∧
      ∃ phase : Phase, phase.IsAside (x.answer? kind) ∧ y.phase = Function.update x.phase j phase := by
  cases hturn with
  | enter hp hfree => exact ⟨rfl, rfl, rfl, .looking, trivial, rfl⟩
  | lead hp hfresh => exact absurd hfresh hr
  | sleep hp hnone => exact ⟨rfl, rfl, rfl, .waiting, by simp [Phase.IsAside, answer?, hnone], rfl⟩
  | answer hp hanswer => exact ⟨rfl, rfl, rfl, .returned _, hanswer, rfl⟩
  | attempt w hp hdone => rw [hp] at haside; exact haside.elim
  | reenter hp hfree => rw [hp] at haside; exact haside.elim
  | note hp => rw [hp] at haside; exact haside.elim

theorem Unopened.turn (h : Unopened x) (hturn : Turn kind hooks x i y) : Unopened y ∨ Led kind y i := by
  have hearly := h.early i
  cases hturn with
  | enter hp hfree =>
      refine .inl ⟨h.registration, h.admissions, h.attempts, fun j => ?_⟩
      by_cases hj : j = i
      · exact .inr (by simp [hj])
      · simpa [hj] using h.early j
  | lead hp hr =>
      refine .inr ⟨by simp [h.admissions], ?_, fun j hj => ?_⟩
      · simp only [phase_put_self]
        show Charge i .admitted none x.attempts
        rw [h.attempts]
        exact .admitted
      · simp only [phase_put_ne hj]
        rcases h.early j with hp | hp <;>
          · rw [hp]
            trivial
  | sleep hp hr => rw [h.registration] at hr; cases hr
  | answer hp hr => simp [answer?, h.registration, Registration.settled?] at hr
  | attempt w hp hdone => simp [hp] at hearly
  | reenter hp hfree => simp [hp] at hearly
  | note hp => simp [hp] at hearly

section Charges

variable {registration : Option Registration} {attempts : List (ι × Except Unprepared Bool)}
  {outcome : Except Unprepared Bool}

omit [DecidableEq ι]

theorem Charge.of_admitted (h : Charge i .admitted registration attempts) :
    registration = none ∧ attempts = [] := by
  cases h
  exact ⟨rfl, rfl⟩

theorem Charge.of_attempted (h : Charge i (.attempted outcome) registration attempts) :
    registration = none ∧ attempts = [(i, outcome)] := by
  cases h
  exact ⟨rfl, rfl⟩

theorem Charge.of_noting (h : Charge i (.noting outcome) registration attempts) :
    registration = none ∧ attempts = [(i, outcome)] := by
  cases h
  exact ⟨rfl, rfl⟩

/-- What is settled was settled by the attempt that was made. -/
theorem Charge.of_settled (h : Charge i phase registration attempts) (hr : registration.isSome) :
    ∃ outcome, phase = .returned (outcome.mapError Unprepared.stop) ∧
      registration = some (.after outcome) ∧ attempts = [(i, outcome)] := by
  cases h with
  | settled outcome => exact ⟨outcome, rfl, rfl, rfl⟩
  | _ => cases hr

theorem Charge.registration_ne_fresh (h : Charge i phase registration attempts) :
    registration ≠ some .fresh := by
  cases h with
  | settled outcome => cases outcome <;> simp [Registration.after]
  | _ => simp

theorem Charge.attempts_le_one (h : Charge i phase registration attempts) : attempts.length ≤ 1 := by
  cases h <;> simp

end Charges

/-- The turn of the thread that leads. -/
theorem Led.turn_self (h : Led kind x i) (hturn : Turn kind hooks x i y) : Led kind y i := by
  have hcharge := h.charge
  have hothers (phase : Phase) : ∀ j, j ≠ i → ((x.put i phase).phase j).IsAside (x.answer? kind) :=
    fun j hj => by simpa [hj] using h.aside j hj
  cases hturn with
  | enter hp hfree => rw [hp] at hcharge; cases hcharge
  | lead hp hr => rw [hp] at hcharge; cases hcharge
  | sleep hp hr => rw [hp] at hcharge; cases hcharge
  | answer hp hr => rw [hp] at hcharge; cases hcharge
  | attempt w hp hdone =>
      rw [hp] at hcharge
      obtain ⟨hr, ht⟩ := hcharge.of_admitted
      refine ⟨h.admissions, ?_, hothers _⟩
      simp only [phase_put_self]
      show Charge i _ x.registration ((i, _) :: x.attempts)
      rw [hr, ht]
      exact .attempted _
  | reenter hp hfree =>
      rw [hp] at hcharge
      obtain ⟨hr, ht⟩ := hcharge.of_attempted
      refine ⟨h.admissions, ?_, hothers _⟩
      simp only [phase_put_self]
      show Charge i _ x.registration x.attempts
      rw [hr, ht]
      exact .noting _
  | note hp =>
      rw [hp] at hcharge
      obtain ⟨hr, ht⟩ := hcharge.of_noting
      refine ⟨h.admissions, ?_, fun j hj => ?_⟩
      · simp only [Function.update_self, ht]
        exact .settled _
      · have hbefore := h.aside j hj
        rw [answer?, hr] at hbefore
        simpa [hj] using hbefore.woken

/-- The turn of a thread that does not lead. -/
theorem Led.turn_other (h : Led kind x i) (hj : j ≠ i) (hturn : Turn kind hooks x j y) :
    Led kind y i ∧ y.registration = x.registration := by
  obtain ⟨hregistration, hadmissions, hattempts, phase, haside, hphase⟩ :=
    hturn.aside (h.aside j hj) h.charge.registration_ne_fresh
  have hanswer : y.answer? kind = x.answer? kind := by rw [answer?, hregistration, answer?]
  refine ⟨⟨hadmissions.trans h.admissions, ?_, fun k hk => ?_⟩, hregistration⟩
  · rw [hphase, Function.update_of_ne (Ne.symm hj), hregistration, hattempts]
    exact h.charge
  · rw [hphase, hanswer]
    by_cases hkj : k = j
    · rw [hkj, Function.update_self]
      exact haside
    · rw [Function.update_of_ne hkj]
      exact h.aside k hk

/-- Once the matter is settled the thread that leads has no turn any more. -/
theorem Led.not_turn_self (h : Led kind x i) (hr : x.registration.isSome) : ¬ Turn kind hooks x i y := by
  obtain ⟨outcome, hp, -, -⟩ := h.charge.of_settled hr
  intro hturn
  cases hturn <;> simp_all

/-! ### What no step undoes -/

/-- The lock is held by the thread that is inside, and no thread was admitted or one, which leads. -/
structure Orderly (kind : Kind) (x : Registering ι) : Prop where
  locked : x.Locked
  stage : Unopened x ∨ ∃ i, Led kind x i

omit [DecidableEq ι] in
theorem orderly_opening (db : Database) : Orderly kind (opening db : Registering ι) :=
  ⟨fun j => by simp [opening, Phase.isInside], .inl ⟨rfl, rfl, rfl, fun _ => .inl rfl⟩⟩

theorem Orderly.turn (h : Orderly kind x) (hturn : Turn kind hooks x j y) : Orderly kind y := by
  refine ⟨h.locked.turn hturn, ?_⟩
  rcases h.stage with hunopened | ⟨i, hled⟩
  · exact (hunopened.turn hturn).imp_right fun hled => ⟨j, hled⟩
  · by_cases hj : j = i
    · rw [hj] at hturn
      exact .inr ⟨i, hled.turn_self hturn⟩
    · exact .inr ⟨i, (hled.turn_other hj hturn).1⟩

/-- A thread that sleeps may wake at any time. -/
theorem Orderly.wake (h : Orderly kind x) (hp : x.phase j = .waiting) :
    Orderly kind (x.put j .arriving) := by
  refine ⟨h.locked.outside (by rw [hp]; rfl) rfl rfl rfl, ?_⟩
  have haside {answer? : Option (Except (Stop StoreError) Bool)} (k : ι)
      (hk : (x.phase k).IsAside answer?) : ((x.put j .arriving).phase k).IsAside answer? := by
    by_cases hkj : k = j
    · rw [hkj, phase_put_self]
      trivial
    · rwa [phase_put_ne hkj]
  rcases h.stage with hunopened | ⟨i, hled⟩
  · simpa [hp] using hunopened.early j
  · refine .inr ⟨i, hled.admissions, ?_, fun k hk => haside k (hled.aside k hk)⟩
    -- The thread that leads does not sleep.
    have hij : i ≠ j := by
      rintro rfl
      have hcharge := hled.charge
      rw [hp] at hcharge
      cases hcharge
    rw [phase_put_ne hij]
    exact hled.charge

theorem Orderly.step (h : Orderly kind x) (hstep : Step kind hooks x y) : Orderly kind y := by
  cases hstep with
  | turn i hturn => exact h.turn hturn
  | wake i hp => exact h.wake hp
  | elsewhere db =>
      exact ⟨h.locked, h.stage.imp (fun h => ⟨h.registration, h.admissions, h.attempts, h.early⟩)
        fun ⟨i, h⟩ => ⟨i, h.admissions, h.charge, h.aside⟩⟩

theorem Orderly.leads (h : Orderly kind x) (hleads : Leads kind hooks x y) : Orderly kind y := by
  induction hleads with
  | refl => exact h
  | tail _ hstep ih => exact ih.step hstep

/-- A matter that is settled stays settled as it is. -/
theorem Orderly.settled_step {registration : Registration} (h : Orderly kind x)
    (hr : x.registration = some registration) (hfresh : registration ≠ .fresh)
    (hstep : Step kind hooks x y) : y.registration = some registration := by
  cases hstep with
  | wake i hp => exact hr
  | elsewhere db => exact hr
  | turn j hturn =>
      rcases h.stage with hunopened | ⟨i, hled⟩
      · exact absurd (Option.some.inj (hr.symm.trans hunopened.registration)) hfresh
      · by_cases hj : j = i
        · rw [hj] at hturn
          exact absurd hturn (hled.not_turn_self (by rw [hr]; rfl))
        · rw [(hled.turn_other hj hturn).2, hr]

theorem Orderly.settled_leads {registration : Registration} (h : Orderly kind x)
    (hr : x.registration = some registration) (hfresh : registration ≠ .fresh)
    (hleads : Leads kind hooks x y) : y.registration = some registration := by
  induction hleads with
  | refl => exact hr
  | tail hbefore hstep ih => exact (h.leads hbefore).settled_step ih hfresh hstep

/-! ### What the threads are told -/

section Told

omit [DecidableEq ι]

theorem Orderly.admissions_le_one (h : Orderly kind x) : x.admissions.length ≤ 1 := by
  rcases h.stage with hunopened | ⟨i, hled⟩
  · simp [hunopened.admissions]
  · simp [hled.admissions]

theorem Orderly.attempts_le_one (h : Orderly kind x) : x.attempts.length ≤ 1 := by
  rcases h.stage with hunopened | ⟨i, hled⟩
  · simp [hunopened.attempts]
  · exact hled.charge.attempts_le_one

/-- In a settled matter there is an answer, according to the attempt that was made. -/
theorem answer?_after {outcome : Except Unprepared Bool} (hr : x.registration = some (.after outcome)) :
    x.answer? kind = some (if outcome.isOk then .ok false
      else .error (.failed (.registrationFailed kind))) := by
  rw [answer?, hr]
  cases outcome <;> rfl

/-- A matter that is settled was settled by the thread that leads. -/
theorem Orderly.settled {registration : Registration} (h : Orderly kind x)
    (hr : x.registration = some registration) (hfresh : registration ≠ .fresh) :
    ∃ i outcome, Led kind x i ∧ x.phase i = .returned (outcome.mapError Unprepared.stop) ∧
      registration = .after outcome ∧ x.attempts = [(i, outcome)] := by
  rcases h.stage with hunopened | ⟨i, hled⟩
  · exact absurd (Option.some.inj (hr.symm.trans hunopened.registration)) hfresh
  · obtain ⟨outcome, hp, hafter, ht⟩ := hled.charge.of_settled (by rw [hr]; rfl)
    exact ⟨i, outcome, hled, hp, Option.some.inj (hr.symm.trans hafter), ht⟩

/-- No call is over before the matter is settled. -/
theorem Orderly.settled_of_returned {result : Except (Stop StoreError) Bool} (h : Orderly kind x)
    (hp : x.phase j = .returned result) :
    ∃ registration, x.registration = some registration ∧ registration ≠ .fresh := by
  rcases h.stage with hunopened | ⟨i, hled⟩
  · simpa [hp] using hunopened.early j
  · cases hr : x.registration with
    | some registration =>
        exact ⟨registration, rfl, fun hfresh => hled.charge.registration_ne_fresh (hfresh ▸ hr)⟩
    | none =>
        by_cases hj : j = i
        · have hcharge := hled.charge
          rw [← hj, hp, hr] at hcharge
          cases hcharge
        · have haside := hled.aside j hj
          rw [hp, answer?, hr] at haside
          cases haside

/-- What a call that is over was told. -/
theorem Orderly.of_returned {result : Except (Stop StoreError) Bool} (h : Orderly kind x)
    (hp : x.phase j = .returned result) :
    ∃ i outcome, x.attempts = [(i, outcome)] ∧ x.registration = some (.after outcome) ∧
      (j = i → result = outcome.mapError Unprepared.stop) ∧
      (j ≠ i → result = if outcome.isOk then .ok false
        else .error (.failed (.registrationFailed kind))) := by
  obtain ⟨registration, hr, hfresh⟩ := h.settled_of_returned hp
  obtain ⟨i, outcome, hled, hi, rfl, ht⟩ := h.settled hr hfresh
  refine ⟨i, outcome, ht, hr, ?_, fun hj => ?_⟩
  · rintro rfl
    exact Phase.returned.inj (hp.symm.trans hi)
  · have haside := hled.aside j hj
    rw [hp, answer?_after hr] at haside
    exact (Option.some.inj haside).symm

end Told

/-! ### Nobody is kept waiting -/

omit [DecidableEq ι] in
/-- In a settled matter a thread has yet to look, or its call is over. -/
theorem Orderly.phase_of_settled {registration : Registration} (h : Orderly kind x)
    (hr : x.registration = some registration) (hfresh : registration ≠ .fresh) (j : ι) :
    x.phase j = .arriving ∨ x.phase j = .looking ∨ ∃ result, x.phase j = .returned result := by
  obtain ⟨i, outcome, hled, hi, rfl, -⟩ := h.settled hr hfresh
  by_cases hj : j = i
  · rw [hj]
    exact .inr (.inr ⟨_, hi⟩)
  · have haside := hled.aside j hj
    rw [answer?_after hr] at haside
    cases hp : x.phase j with
    | arriving => exact .inl rfl
    | looking => exact .inr (.inl rfl)
    | returned result => exact .inr (.inr ⟨result, rfl⟩)
    | waiting => rw [hp] at haside; cases haside
    | admitted => rw [hp] at haside; exact haside.elim
    | attempted outcome => rw [hp] at haside; exact haside.elim
    | noting outcome => rw [hp] at haside; exact haside.elim

/-- A thread that has the lock has a turn. -/
theorem Orderly.exists_turn_of_holder (h : Orderly kind x) (hi : x.holder = some i) :
    ∃ y, Turn kind hooks x i y := by
  have hinside := (h.locked i).mp hi
  cases hp : x.phase i with
  | looking =>
      cases hr : x.registration with
      | none => exact ⟨_, .sleep hp hr⟩
      | some registration =>
          by_cases hfresh : registration = .fresh
          · exact ⟨_, .lead hp (hfresh ▸ hr)⟩
          · obtain ⟨i', outcome, -, -, hafter, -⟩ := h.settled hr hfresh
            exact ⟨_, .answer hp (answer?_after (hafter ▸ hr))⟩
  | noting outcome => exact ⟨_, .note hp⟩
  | _ => simp [hp, Phase.isInside] at hinside

/-- While there is a thread whose call is not over, there is one that has a turn. -/
theorem Orderly.not_stuck (h : Orderly kind x) (hj : ∀ result, x.phase j ≠ .returned result) :
    ∃ i y, Turn kind hooks x i y := by
  cases hfree : x.holder with
  | some i => exact ⟨i, h.exists_turn_of_holder hfree⟩
  | none =>
      have hout (k : ι) : x.phase k ≠ .looking := by
        have hlock := h.locked k
        rw [hfree] at hlock
        intro hp
        simp [hp, Phase.isInside] at hlock
      cases hr : x.registration with
      | none =>
          -- The thread that leads has its attempt before it, or behind it and not yet noted.
          rcases h.stage with hunopened | ⟨i, hled⟩
          · exact absurd (hr.symm.trans hunopened.registration) (by simp)
          · have hcharge := hled.charge
            rw [hr] at hcharge
            generalize hp : x.phase i = phase, x.attempts = attempts at hcharge
            cases hcharge with
            | admitted => exact ⟨i, _, .attempt .free hp rfl⟩
            | attempted outcome => exact ⟨i, _, .reenter hp hfree⟩
            | noting outcome => exact ⟨i, _, .note hp⟩
      | some registration =>
          have harriving : x.phase j = .arriving := by
            by_cases hfresh : registration = .fresh
            · rcases h.stage with hunopened | ⟨i, hled⟩
              · exact (hunopened.early j).resolve_right (hout j)
              · exact absurd (hfresh ▸ hr) hled.charge.registration_ne_fresh
            · rcases h.phase_of_settled hr hfresh j with hp | hp | ⟨result, hp⟩
              · exact hp
              · exact absurd hp (hout j)
              · exact absurd hp (hj result)
          exact ⟨j, _, .enter harriving hfree⟩

/-- What may come of it by turns alone, without a wakeup and without anything done elsewhere. -/
def LeadsByTurns (kind : Kind) (hooks : ι → Hook) : Registering ι → Registering ι → Prop :=
  Relation.ReflTransGen fun x y => ∃ i, Turn kind hooks x i y

/-- Once the matter is settled, it takes turns alone for a call to be over. -/
theorem Orderly.returns {registration : Registration} (h : Orderly kind x)
    (hr : x.registration = some registration) (hfresh : registration ≠ .fresh) (j : ι) :
    ∃ y result, LeadsByTurns kind hooks x y ∧ y.phase j = .returned result := by
  obtain ⟨i, outcome, hled, hi, rfl, -⟩ := h.settled hr hfresh
  have hlook {z : Registering ι} (hz : z.registration = some (.after outcome))
      (hp : z.phase j = .looking) :
      ∃ y result, LeadsByTurns kind hooks z y ∧ y.phase j = .returned result :=
    ⟨_, _, .single ⟨j, .answer hp (answer?_after hz)⟩, phase_put_self⟩
  have henter {z : Registering ι} (hz : z.registration = some (.after outcome))
      (hp : z.phase j = .arriving) (hfree : z.holder = none) :
      ∃ y result, LeadsByTurns kind hooks z y ∧ y.phase j = .returned result := by
    obtain ⟨y, result, hturns, hy⟩ :=
      hlook (z := { z.put j .looking with holder := some j }) hz phase_put_self
    exact ⟨y, result, .head ⟨j, .enter hp hfree⟩ hturns, hy⟩
  rcases h.phase_of_settled hr hfresh j with hp | hp | ⟨result, hp⟩
  · cases hfree : x.holder with
    | none => exact henter hr hp hfree
    | some k =>
        -- Who has the lock is about to look, and gives it back.
        have hk : x.phase k = .looking := by
          have hinside := (h.locked k).mp hfree
          rcases h.phase_of_settled hr hfresh k with hk | hk | ⟨result, hk⟩
          · simp [hk, Phase.isInside] at hinside
          · exact hk
          · simp [hk, Phase.isInside] at hinside
        have hjk : j ≠ k := by
          rintro rfl
          simp [hp] at hk
        have hturn : Turn kind hooks x k _ := .answer hk (answer?_after hr)
        obtain ⟨y, result, hturns, hy⟩ := henter (z := { x.put k (.returned _) with holder := none }) hr
          ((phase_put_ne hjk).trans hp) rfl
        exact ⟨y, result, .head ⟨k, hturn⟩ hturns, hy⟩
  · exact hlook hr hp
  · exact ⟨x, result, .refl, hp⟩

/-! ### Registering at the same time -/

/-- The hook was run in an attempt that went like this. -/
def hookRan : Except Unprepared Bool → Bool
  | .ok first => first
  | .error e => e.hookRan

omit [DecidableEq ι] in
theorem register_fresh_eq (kind : Kind) (hook : Hook) (w : Terms) (db : Database) :
    let attempt := Registration.fresh.register kind hook (w.session db)
    let outcome := (Registration.prepare kind hook).effect w db
    attempt.result = outcome.result.mapError Unprepared.stop ∧
      attempt.hookRan = hookRan outcome.result ∧ attempt.registration = .after outcome.result ∧
      attempt.session.database = outcome.database := by
  simp only [Registration.register, Registration.settled?, Action.effect]
  cases Registration.prepare kind hook (w.session db) with
  | ok first s => exact ⟨rfl, rfl, rfl, rfl⟩
  | error e s => exact ⟨rfl, rfl, rfl, rfl⟩

/-- A thread that is left alone does what registering is without threads. -/
theorem register_alone {registration : Registration} {w : Terms} {attempt : Attempt}
    (hr : x.registration = some registration) (hfree : x.holder = none) (hp : x.phase i = .arriving)
    (hattempt : registration.register kind (hooks i) (w.session x.database) = attempt) : ∃ y,
      Relation.ReflTransGen (fun x y => Turn kind hooks x i y) x y ∧
        y.phase i = .returned attempt.result ∧ y.registration = some attempt.registration ∧
        y.database = attempt.session.database := by
  let entered : Registering ι := { x.put i .looking with holder := some i }
  have hentered : Turn kind hooks x i entered := .enter hp hfree
  have hlooking : entered.phase i = .looking := phase_put_self
  cases hs : registration.settled? kind with
  | some result =>
      have hanswer : entered.answer? kind = some result := by
        rw [answer?, show entered.registration = some registration from hr]
        exact hs
      refine ⟨_, .tail (.single hentered) (.answer hlooking hanswer), ?_⟩
      rw [Registration.register, hs] at hattempt
      rw [← hattempt]
      exact ⟨phase_put_self, hr, rfl⟩
  | none =>
      obtain rfl : registration = .fresh := by
        cases registration with
        | fresh => rfl
        | ready => cases hs
        | failed => cases hs
      obtain ⟨hresult, -, hafter, hdatabase⟩ := register_fresh_eq kind (hooks i) w x.database
      rw [← hattempt, hresult, hafter, hdatabase]
      let outcome := (Registration.prepare kind (hooks i)).effect w x.database
      let admitted : Registering ι :=
        { entered.put i .admitted with
          registration := none, holder := none, admissions := i :: x.admissions }
      let attempted : Registering ι :=
        { admitted.put i (.attempted outcome.result) with
          database := outcome.database, attempts := (i, outcome.result) :: x.attempts }
      let noting : Registering ι := { attempted.put i (.noting outcome.result) with holder := some i }
      have hadmitted : Turn kind hooks entered i admitted := .lead hlooking hr
      have hattempted : Turn kind hooks admitted i attempted := .attempt w phase_put_self rfl
      have hnoting : Turn kind hooks attempted i noting := .reenter phase_put_self rfl
      refine ⟨_, .tail (.tail (.tail (.tail (.single hentered) hadmitted) hattempted) hnoting)
        (.note phase_put_self), ?_⟩
      exact ⟨by simp only [Function.update_self]; rfl, rfl, rfl⟩

/-- **However many threads register at the same time, the kind is prepared by at most one of them.**
While that one is at work nobody's call is over.  When it is done its own call tells how the attempt
went, and all other calls succeed if it succeeded and are refused if it failed or panicked.  That is
settled for good, and nobody is kept waiting. -/
theorem one_initialization {db : Database} (hleads : Leads kind hooks (opening db) x) :
    x.admissions.length ≤ 1 ∧ x.attempts.countP (fun attempt => hookRan attempt.2) ≤ 1 ∧
      (x.registration = none → ∀ j result, x.phase j ≠ .returned result) ∧
      (∀ j result, x.phase j = .returned result → ∃ i outcome, x.attempts = [(i, outcome)] ∧
        x.registration = some (.after outcome) ∧
        (j = i → result = outcome.mapError Unprepared.stop) ∧
        (j ≠ i → result = if outcome.isOk then .ok false
          else .error (.failed (.registrationFailed kind)))) ∧
      ∀ registration, x.registration = some registration → registration ≠ .fresh →
        (∀ y, Leads kind hooks x y → y.registration = some registration) ∧
        ∀ j, x.phase j ≠ .waiting ∧
          ∃ y result, LeadsByTurns kind hooks x y ∧ y.phase j = .returned result := by
  have h : Orderly kind x := (orderly_opening db).leads hleads
  refine ⟨h.admissions_le_one, ?_, ?_, fun j result => h.of_returned, ?_⟩
  · exact Nat.le_trans List.countP_le_length h.attempts_le_one
  · intro hr j result hp
    obtain ⟨registration, hsome, -⟩ := h.settled_of_returned hp
    rw [hr] at hsome
    cases hsome
  · intro registration hr hfresh
    refine ⟨fun y hy => h.settled_leads hr hfresh hy, fun j => ⟨?_, h.returns hr hfresh j⟩⟩
    intro hwaiting
    rcases h.phase_of_settled hr hfresh j with hp | hp | ⟨result, hp⟩ <;> simp [hwaiting] at hp

/-- Hooks that panic. -/
def panicking (_ : Bool) : Hook := { additions := [], ending := .panic }

/-- One thread's hook panics while the other thread sleeps, which has woken in vain before: the one
was admitted and the other is refused, for good. -/
theorem one_initialization_of_panic : ∃ x, Leads .role panicking (opening .migrated) x ∧
    x.phase false = .returned (.error .panicked) ∧
    x.phase true = .returned (.error (.failed (.registrationFailed .role))) ∧
    x.admissions.length ≤ 1 ∧ ∀ y, Leads .role panicking x y → y.registration = some .failed := by
  have hadmitted : Leads .role panicking (opening .migrated) _ :=
    .tail (.single (.turn false (.enter rfl rfl))) (.turn false (.lead rfl rfl))
  have hasleep : Leads .role panicking (opening .migrated) _ :=
    .tail (.tail hadmitted (.turn true (.enter rfl rfl))) (.turn true (.sleep rfl rfl))
  have hagain : Leads .role panicking (opening .migrated) _ :=
    .tail (.tail (.tail hasleep (.wake true rfl)) (.turn true (.enter rfl rfl)))
      (.turn true (.sleep rfl rfl))
  have hnoted : Leads .role panicking (opening .migrated) _ :=
    .tail (.tail (.tail hagain (.turn false (.attempt .free rfl rfl)))
      (.turn false (.reenter rfl rfl))) (.turn false (.note rfl))
  have hanswered : Leads .role panicking (opening .migrated) _ :=
    .tail (.tail hnoted (.turn true (.enter rfl rfl))) (.turn true (.answer rfl rfl))
  obtain ⟨hadmissions, -, -, -, hsettled⟩ := one_initialization hanswered
  exact ⟨_, hanswered, rfl, rfl, hadmissions, (hsettled .failed rfl (by decide)).1⟩

end Registering

end AccessStore
