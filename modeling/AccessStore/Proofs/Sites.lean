/-
Stores that start on one database.

A start is not one transaction but four, one for each kind, and between two of them anything
may happen: other stores start and register the same kinds, a store is stopped or goes away,
new ones come, and clients do the steps of calls that were let through some open gate.  Every
start may fail at any kind, be it for the defaults or for the terms on which it works.

So it is not plain that a store which is open finds all kinds prepared.  What makes it true is
tied together in `Site.Sound`.  An open gate means that the store's registrations are ready; a
registration that is ready means that the kind is marked; a marked kind was seeded in one go,
which is on record; and as long as a kind is not marked no gate has ever been open, so nobody
but a start can have touched its table, and no start has done so in vain.
-/
import Mathlib.Logic.Function.Basic
import Mathlib.Logic.Relation
import AccessStore.Proofs.Frames
import AccessStore.Proofs.Starting
import AccessStore.Proofs.Underway

namespace AccessStore

/-! ### Seeding a kind on any terms -/

namespace Seeding

open Registration

variable {d : Defaults} {kind : Kind} {w : Terms} {db db' : Database} {records : List Record}

/-- Records that were all added could be, and are there. -/
theorem addAll_ok (hkind : ∀ r ∈ records, r.kind = kind)
    (hok : (Hook.addAll records).effect w db = ⟨.ok (), db'⟩) :
    Acceptable db kind records ∧ db' = db.grown records := by
  rcases effect_addAll_cases w db records with ⟨ha, heffect⟩ | ⟨e, -, herror⟩
  · rw [hok] at heffect
    exact ⟨ha.acceptable hkind, congrArg Outcome.database heffect⟩
  · rw [hok] at herror
    cases herror

/-- On any terms a kind is prepared in one of three ways: it fails and nothing has changed, there is
nothing to do, or all defaults are added to a kind that was not marked. -/
theorem preparing_outcome (d : Defaults) (kind : Kind) (w : Terms) (db : Database) :
    (∃ e, preparing d kind w db = ⟨.error e, db⟩) ∨
      (db.isMarked kind = true ∧ preparing d kind w db = ⟨.ok false, db⟩) ∨
      (db.isMarked kind = false ∧ Acceptable db kind (d.records kind) ∧
        preparing d kind w db = ⟨.ok true, (db.mark kind).grown (d.records kind)⟩) := by
  rw [preparing, effect_prepare]
  cases w.barrier? with
  | some fault => exact .inl ⟨_, rfl⟩
  | none =>
      cases w.markFault? db with
      | some fault => exact .inl ⟨_, rfl⟩
      | none =>
          cases hmarked : db.isMarked kind with
          | true => exact .inr (.inl ⟨rfl, rfl⟩)
          | false =>
              simp only [effect_hook, Bool.false_eq_true, if_false]
              rcases hadd : (Hook.addAll (d.records kind)).effect w (db.mark kind) with ⟨result, db'⟩
              cases result with
              | error e => exact .inl ⟨_, rfl⟩
              | ok _ =>
                  have hkind : ∀ r ∈ d.records kind, r.kind = kind := fun r hr =>
                    Defaults.kind_of_mem_records hr
                  obtain ⟨ha, rfl⟩ := addAll_ok hkind hadd
                  exact .inr (.inr ⟨trivial, ⟨ha.named, ha.distinct, ha.untaken⟩, rfl⟩)

theorem seedKind_ready {registrations : PerKind Registration} (h : registrations.get kind = .ready)
    (s : Session) :
    seedKind d kind ⟨registrations, s⟩
      = .ok (reportOf d kind false) ⟨registrations.set kind .ready, s⟩ := by
  simp [seedKind, h, register, settled?, reportOf]

theorem seedKind_failed {registrations : PerKind Registration} (h : registrations.get kind = .failed)
    (s : Session) :
    seedKind d kind ⟨registrations, s⟩
      = .error (.failed (.seeding kind (.registrationFailed kind)))
          ⟨registrations.set kind .failed, s⟩ := by
  simp [seedKind, h, register, settled?, Stop.map]

/-- What comes of registering a kind with its defaults, whatever the store remembers. -/
theorem seedKind_cases (d : Defaults) (kind : Kind) (registrations : PerKind Registration) (w : Terms)
    (db : Database) :
    (∃ stop s, seedKind d kind ⟨registrations, w.session db⟩
        = .error stop ⟨registrations.set kind .failed, s⟩ ∧ s.database = db) ∨
      ((registrations.get kind = .ready ∨ db.isMarked kind = true) ∧
        ∃ s, seedKind d kind ⟨registrations, w.session db⟩
          = .ok (reportOf d kind false) ⟨registrations.set kind .ready, s⟩ ∧ s.database = db) ∨
      (db.isMarked kind = false ∧ Acceptable db kind (d.records kind) ∧
        ∃ s, seedKind d kind ⟨registrations, w.session db⟩
          = .ok (reportOf d kind true) ⟨registrations.set kind .ready, s⟩ ∧
          s.database = (db.mark kind).grown (d.records kind)) := by
  cases h : registrations.get kind with
  | failed => exact .inl ⟨_, _, seedKind_failed h _, rfl⟩
  | ready => exact .inr (.inl ⟨.inl rfl, _, seedKind_ready h _, rfl⟩)
  | fresh =>
      obtain ⟨told, hseed⟩ := @seedKind_fresh d kind ⟨registrations, w.session db⟩ h rfl
      have hterms : (w.session db).terms = w := rfl
      have hdatabase : (w.session db).database = db := rfl
      simp only [hterms, hdatabase] at hseed
      rcases preparing_outcome d kind w db with ⟨e, hp⟩ | ⟨hmarked, hp⟩ | ⟨hmarked, ha, hp⟩
      · rw [hp] at hseed
        exact .inl ⟨_, _, hseed, rfl⟩
      · rw [hp] at hseed
        exact .inr (.inl ⟨.inr hmarked, _, hseed, rfl⟩)
      · rw [hp] at hseed
        exact .inr (.inr ⟨hmarked, ha, _, hseed, rfl⟩)

/-- Besides its terms a connection brings nothing that matters to registering a kind. -/
theorem seedKind_session (d : Defaults) (kind : Kind) (registrations : PerKind Registration)
    {s : Session} (hs : s.transaction = none) :
    ∃ result registrations' s₁ s₂,
      seedKind d kind ⟨registrations, s⟩ = ended result ⟨registrations', s₁⟩ ∧
        seedKind d kind ⟨registrations, s.terms.session s.database⟩ = ended result ⟨registrations', s₂⟩ ∧
        s₁.database = s₂.database ∧ s₁.transaction = none ∧ s₁.terms = s.terms := by
  cases h : registrations.get kind with
  | failed => exact ⟨.error _, _, _, _, seedKind_failed h s, seedKind_failed h _, rfl, hs, rfl⟩
  | ready => exact ⟨.ok _, _, _, _, seedKind_ready h s, seedKind_ready h _, rfl, hs, rfl⟩
  | fresh =>
      obtain ⟨told, hseed⟩ := @seedKind_fresh d kind ⟨registrations, s⟩ h hs
      obtain ⟨told', hseed'⟩ :=
        @seedKind_fresh d kind ⟨registrations, s.terms.session s.database⟩ h rfl
      refine ⟨_, _, _, _, hseed, hseed', ?_, ?_, Session.terms_onward ..⟩
      · rw [database_onward hs, database_onward rfl]
        rfl
      · simp [Session.onward, Session.setView, hs]

end Seeding

/-! ### Sites -/

namespace Site

/-- A store on a database that others are on, too. -/
structure Store where
  defaults : Defaults
  registrations : PerKind Registration := .fill .fresh
  gate : Gate := .new
  /-- The start that is under way: its number and the kinds it has yet to register. -/
  start? : Option (Nat × List Kind) := none

/-- What a start does about a kind, on a database that holds this. -/
def Store.register (s : Store) (kind : Kind) (w : Terms) (db : Database) :
    EStateM.Result (Stop CallError) Seeding.Stage KindReport :=
  Seeding.seedKind s.defaults kind ⟨s.registrations, w.session db⟩

/-- The first use of a kind in the life of the database. -/
structure FirstUse where
  /-- The number of the start. -/
  start : Nat
  kind : Kind
  defaults : Defaults
  /-- The content before and after. -/
  before : Database
  after : Database

end Site

/-- A database, the stores on it and the calls that were let through to it. -/
structure Site (σ κ : Type) where
  database : Database
  stores : σ → Option Site.Store
  /-- What is left of each call. -/
  calls : κ → Option (Program CallError Answer)
  /-- How many starts there have been. -/
  starts : Nat
  firstUses : List Site.FirstUse
  /-- What the database held each time a call did a step, the latest first. -/
  visits : List Database

namespace Site

variable {σ κ : Type}

/-- A fresh database, and no stores. -/
def fresh : Site σ κ where
  database := .migrated
  stores := fun _ => none
  calls := fun _ => none
  starts := 0
  firstUses := []
  visits := []

section Steps

variable [DecidableEq σ] [DecidableEq κ]

/-- The site with this store. -/
def put (x : Site σ κ) (i : σ) (s : Store) : Site σ κ :=
  { x with stores := Function.update x.stores i (some s) }

/-- Something is done at the site. -/
inductive Step (x : Site σ κ) : Site σ κ → Prop
  /-- A store is created, with whatever defaults. -/
  | create {i : σ} (d : Defaults) (hi : x.stores i = none) : Step x (x.put i { defaults := d })
  /-- A store goes away, be it in the middle of a start. -/
  | drop (i : σ) : Step x { x with stores := Function.update x.stores i none }
  /-- A store whose gate is not open begins to start.  Until that is over it does nothing else. -/
  | begin {i : σ} {s : Store} (hi : x.stores i = some s) (hidle : s.start? = none)
      (hclosed : s.gate ≠ .started) :
      Step x { x.put i { s with start? := some (x.starts, Kind.all) } with starts := x.starts + 1 }
  /-- A start gets no connection. -/
  | refuse {i : σ} {s : Store} {n : Nat} (hi : x.stores i = some s)
      (hstart : s.start? = some (n, Kind.all)) :
      Step x (x.put i { s with start? := none, gate := .failed })
  /-- A start registers its next kind. -/
  | seed {i : σ} {s : Store} {n : Nat} {kind : Kind} {rest : List Kind} {report : KindReport}
      {stage : Seeding.Stage} (hi : x.stores i = some s) (hstart : s.start? = some (n, kind :: rest))
      (w : Terms) (hseed : s.register kind w x.database = .ok report stage) :
      Step x
        { x.put i { s with registrations := stage.registrations, start? := some (n, rest) } with
          database := stage.session.database
          firstUses := if report.firstUse
            then ⟨n, kind, s.defaults, x.database, stage.session.database⟩ :: x.firstUses
            else x.firstUses }
  /-- A start fails to register its next kind, and is over. -/
  | fail {i : σ} {s : Store} {n : Nat} {kind : Kind} {rest : List Kind} {stop : Stop CallError}
      {stage : Seeding.Stage} (hi : x.stores i = some s) (hstart : s.start? = some (n, kind :: rest))
      (w : Terms) (hseed : s.register kind w x.database = .error stop stage) :
      Step x
        { x.put i
            { s with
              registrations := stage.registrations
              start? := none
              gate := s.gate.after (.error stop : Except (Stop CallError) Unit) } with
          database := stage.session.database }
  /-- A start has registered all kinds and opens the gate. -/
  | finish {i : σ} {s : Store} {n : Nat} (hi : x.stores i = some s) (hstart : s.start? = some (n, [])) :
      Step x (x.put i { s with start? := none, gate := .started })
  /-- A store is stopped. -/
  | stop {i : σ} {s : Store} (hi : x.stores i = some s) (hidle : s.start? = none) :
      Step x (x.put i { s with gate := s.gate.stop.2 })
  /-- A call is let through an open gate. -/
  | pass {i : σ} {s : Store} {k : κ} (c : Call) (hi : x.stores i = some s) (hopen : s.gate.isOpen)
      (hk : x.calls k = none) :
      Step x { x with calls := Function.update x.calls k (some c.program) }
  /-- A call that was let through does its next step, whatever has become of the store. -/
  | proceed {k : κ} {β : Type} {action : Action CallError β} {next : β → Program CallError Answer}
      (hk : x.calls k = some (.step action next)) (w : Terms) :
      Step x
        { x with
          database := (action.effect w x.database).database
          calls := Function.update x.calls k (some (Program.rest (action.effect w x.database) next))
          visits := x.database :: x.visits }

/-- What may come of it, step by step. -/
def Leads : Site σ κ → Site σ κ → Prop := Relation.ReflTransGen Step

end Steps

/-! ### What no step undoes -/

/-- A first use is the first indeed, and adds all that there is to add. -/
structure FirstUse.IsWhole (u : FirstUse) : Prop where
  unmarked : u.before.isMarked u.kind = false
  empty : ∀ key, u.before.row? u.kind key = none
  acceptable : Acceptable u.before u.kind (u.defaults.records u.kind)
  marked : u.after.isMarked u.kind = true
  /-- The defaults are there, at the first version, and nothing else. -/
  rows : ∀ key, u.after.row? u.kind key
    = ((u.defaults.records u.kind).find? (·.key = key)).map addedRow
  /-- The tables of other kinds are what they were. -/
  others : ∀ kind, kind ≠ u.kind → u.after.table? kind = u.before.table? kind

/-- What holds of a store, on a database that holds this. -/
structure Store.Sound (s : Store) (db : Database) : Prop where
  /-- A registration is ready only if the kind is marked. -/
  marked : ∀ kind, s.registrations.get kind = .ready → db.isMarked kind = true
  /-- The gate is open only if all registrations are ready. -/
  ready : s.gate = .started → ∀ kind, s.registrations.get kind = .ready
  /-- While a start is under way the gate is not open, and the kinds behind it are ready. -/
  closed : s.start?.isSome → s.gate ≠ .started
  behind : ∀ n rest, s.start? = some (n, rest) →
    ∃ done, Kind.all = done ++ rest ∧ ∀ kind ∈ done, s.registrations.get kind = .ready

/-- What holds of a site. -/
structure Sound (x : Site σ κ) : Prop where
  migrated : x.database.IsMigrated
  /-- A kind that is not marked has no rows, and was not seeded. -/
  unmarked : ∀ kind, x.database.isMarked kind = false →
    (∀ key, x.database.row? kind key = none) ∧ x.firstUses.filter (·.kind = kind) = []
  /-- A kind that is marked was seeded, in one go. -/
  seeded : ∀ kind, x.database.isMarked kind = true →
    ∃ u, x.firstUses.filter (·.kind = kind) = [u] ∧ u.IsWhole
  stores : ∀ i s, x.stores i = some s → s.Sound x.database
  /-- Calls have been let through only after all kinds were marked. -/
  calls : ∀ k p, x.calls k = some p → p.KeepsFrame ∧ ∀ kind, x.database.isMarked kind = true
  visits : x.visits ≠ [] → ∀ kind, x.database.isMarked kind = true

variable {x y : Site σ κ} {i : σ} {k : κ} {s : Store} {db db' : Database} {kind : Kind}
  {n : Nat} {rest : List Kind}

namespace Store.Sound

/-- Marks that are added do not matter. -/
theorem mono (h : s.Sound db) (hmarks : ∀ kind, db.isMarked kind = true → db'.isMarked kind = true) :
    s.Sound db' :=
  ⟨fun kind hkind => hmarks kind (h.marked kind hkind), h.ready, h.closed, h.behind⟩

theorem new (d : Defaults) (db : Database) : Store.Sound { defaults := d } db := by
  refine ⟨fun kind hkind => ?_, fun hgate => ?_, fun hstart => ?_, fun n rest hstart => ?_⟩
  · simp at hkind
  · cases hgate
  · cases hstart
  · cases hstart

/-- A store that is neither open nor starting is sound if its registrations are. -/
theorem idle {registrations : PerKind Registration} {gate : Gate} (h : s.Sound db)
    (hregistrations : ∀ kind, registrations.get kind = .ready → s.registrations.get kind = .ready)
    (hgate : gate ≠ .started) :
    Store.Sound { s with registrations := registrations, start? := none, gate := gate } db := by
  refine ⟨fun kind hkind => h.marked kind (hregistrations kind hkind), fun hopen => absurd hopen hgate,
    fun _ => hgate, fun n rest hstart => ?_⟩
  cases hstart

theorem begin (h : s.Sound db) (hclosed : s.gate ≠ .started) (n : Nat) :
    Store.Sound { s with start? := some (n, Kind.all) } db := by
  refine ⟨h.marked, fun hopen => absurd hopen hclosed, fun _ => hclosed, ?_⟩
  intro n rest hstart
  cases hstart
  exact ⟨[], rfl, by simp⟩

/-- The next kind is registered, and marked by then. -/
theorem seed (h : s.Sound db) (hstart : s.start? = some (n, kind :: rest))
    (hmarked : db.isMarked kind = true) :
    Store.Sound { s with registrations := s.registrations.set kind .ready, start? := some (n, rest) }
      db := by
  have hclosed : s.gate ≠ .started := h.closed (by rw [hstart]; rfl)
  refine ⟨fun other hother => ?_, fun hopen => absurd hopen hclosed, fun _ => hclosed, ?_⟩
  · by_cases hkind : other = kind
    · rwa [hkind]
    · simp only [PerKind.get_set_ne _ _ hkind] at hother
      exact h.marked other hother
  · intro n' rest' hrest
    cases hrest
    obtain ⟨done, hall, hdone⟩ := h.behind n (kind :: rest) hstart
    refine ⟨done ++ [kind], by simp [hall], fun other hother => ?_⟩
    by_cases hkind : other = kind
    · simp [hkind]
    · simp only [PerKind.get_set_ne _ _ hkind]
      exact hdone other (by simpa [hkind] using hother)

theorem finish (h : s.Sound db) (hstart : s.start? = some (n, [])) :
    Store.Sound { s with start? := none, gate := .started } db := by
  obtain ⟨done, hall, hdone⟩ := h.behind n [] hstart
  rw [List.append_nil] at hall
  refine ⟨h.marked, fun _ kind => hdone kind ?_, fun hstart => ?_, fun n rest hstart => ?_⟩
  · rw [← hall]
    cases kind <;> decide
  · cases hstart
  · cases hstart

theorem stop (h : s.Sound db) : Store.Sound { s with gate := s.gate.stop.2 } db := by
  have hstopped : s.gate.stop.2 ≠ .started := by
    unfold Gate.stop Gate.isOpen
    by_cases hopen : s.gate = .started <;> simp [hopen]
  exact ⟨h.marked, fun hopen => absurd hopen hstopped, fun _ => hstopped, h.behind⟩

end Store.Sound

namespace Sound

theorem fresh : (Site.fresh : Site σ κ).Sound := by
  refine ⟨Database.isMigrated_migrated, fun kind _ => ⟨fun key => ?_, rfl⟩, fun kind hkind => ?_,
    fun i s hs => ?_, fun k p hp => ?_, fun hvisits => ?_⟩
  · cases kind <;> rfl
  · cases kind <;> cases hkind
  · cases hs
  · cases hp
  · exact absurd rfl hvisits

/-- An open gate means that all kinds are marked. -/
theorem isMarked_of_open (h : x.Sound) (hi : x.stores i = some s) (hopen : s.gate = .started)
    (kind : Kind) : s.registrations.get kind = .ready ∧ x.database.isMarked kind = true := by
  have hs := h.stores i s hi
  have hready := hs.ready hopen kind
  exact ⟨hready, hs.marked kind hready⟩

/-- A kind that was not marked is prepared. -/
theorem use {d : Defaults} (h : x.Sound) (hfresh : x.database.isMarked kind = false)
    (ha : Acceptable x.database kind (d.records kind)) (hp : Seeding.Prepared d [kind] x.database db)
    (n : Nat) :
    Sound { x with database := db, firstUses := ⟨n, kind, d, x.database, db⟩ :: x.firstUses } := by
  have hmarks (other : Kind) (hother : x.database.isMarked other = true) :
      db.isMarked other = true := by
    rw [hp.marked, hother, Bool.true_or]
  obtain ⟨hempty, hfirst⟩ := h.unmarked kind hfresh
  refine ⟨hp.migrated, fun other hother => ?_, fun other hother => ?_,
    fun j t ht => (h.stores j t ht).mono hmarks, fun k p hk => ?_, fun hvisits other => ?_⟩
  · have hsplit := hp.marked other
    rw [hother] at hsplit
    obtain ⟨hbefore, hne⟩ : x.database.isMarked other = false ∧ other ≠ kind := by
      simpa using hsplit.symm
    obtain ⟨hrows, huses⟩ := h.unmarked other hbefore
    refine ⟨fun key => ?_, ?_⟩
    · rw [Seeding.row?_congr (hp.kept other (.inl (by simpa using hne)))]
      exact hrows key
    · rw [List.filter_cons_of_neg (by simpa using Ne.symm hne)]
      exact huses
  · by_cases hkind : other = kind
    · refine ⟨⟨n, kind, d, x.database, db⟩, ?_, ?_⟩
      · rw [List.filter_cons_of_pos (by simp [hkind]), hkind, hfirst]
      · refine ⟨hfresh, hempty, ha, by rw [← hkind]; exact hother, fun key => ?_, fun other hne => ?_⟩
        · rw [hp.gained kind (by simp) hfresh key, hempty key]
          cases (d.records kind).find? (·.key = key) <;> rfl
        · exact hp.kept other (.inl (by simpa using hne))
    · have hbefore : x.database.isMarked other = true := by
        rw [hp.marked] at hother
        simpa [hkind] using hother
      rw [List.filter_cons_of_neg (by simpa using Ne.symm hkind)]
      exact h.seeded other hbefore
  · exact ⟨(h.calls k p hk).1, fun other => hmarks other ((h.calls k p hk).2 other)⟩
  · exact hmarks other (h.visits hvisits other)

section Stores

variable [DecidableEq σ]

/-- A store is put that is sound. -/
theorem put (h : x.Sound) (hs : s.Sound x.database) : (x.put i s).Sound := by
  refine ⟨h.migrated, h.unmarked, h.seeded, fun j t ht => ?_, h.calls, h.visits⟩
  by_cases hj : j = i
  · obtain rfl : s = t := by simpa [Site.put, hj] using ht
    exact hs
  · exact h.stores j t (by simpa [Site.put, hj] using ht)

theorem drop (h : x.Sound) (i : σ) :
    Sound { x with stores := Function.update x.stores i none } := by
  refine ⟨h.migrated, h.unmarked, h.seeded, fun j t ht => ?_, h.calls, h.visits⟩
  by_cases hj : j = i
  · simp [hj] at ht
  · exact h.stores j t (by simpa [hj] using ht)

/-- A start registers its next kind. -/
theorem seed {report : KindReport} {stage : Seeding.Stage} {w : Terms} (h : x.Sound)
    (hi : x.stores i = some s) (hstart : s.start? = some (n, kind :: rest))
    (hseed : s.register kind w x.database = .ok report stage) :
    Sound
      { x.put i { s with registrations := stage.registrations, start? := some (n, rest) } with
        database := stage.session.database
        firstUses := if report.firstUse
          then ⟨n, kind, s.defaults, x.database, stage.session.database⟩ :: x.firstUses
          else x.firstUses } := by
  have hs := h.stores i s hi
  rcases Seeding.seedKind_cases s.defaults kind s.registrations w x.database with
    ⟨stop, session, heq, -⟩ | ⟨hready, session, heq, hdb⟩ | ⟨hfresh, ha, session, heq, hdb⟩
  · cases hseed.symm.trans heq
  · obtain ⟨rfl, rfl⟩ := EStateM.Result.ok.inj (hseed.symm.trans heq)
    have hmarked : x.database.isMarked kind = true := hready.elim (hs.marked kind) id
    have hput := h.put (i := i) (hs.seed hstart hmarked)
    simp only [hdb]
    exact hput
  · obtain ⟨rfl, rfl⟩ := EStateM.Result.ok.inj (hseed.symm.trans heq)
    have hp : Seeding.Prepared s.defaults [kind] x.database session.database := by
      rw [hdb]
      exact Seeding.prepared_grown h.migrated hfresh ha
    have hused := h.use hfresh ha hp n
    have hmarks (other : Kind) (hother : x.database.isMarked other = true) :
        session.database.isMarked other = true := by
      rw [hp.marked, hother, Bool.true_or]
    exact hused.put (i := i) ((hs.mono hmarks).seed hstart (by simp [hp.marked]))

/-- A start fails to register its next kind. -/
theorem fail {stop : Stop CallError} {stage : Seeding.Stage} {w : Terms} (h : x.Sound)
    (hi : x.stores i = some s) (hstart : s.start? = some (n, kind :: rest))
    (hseed : s.register kind w x.database = .error stop stage) :
    Sound
      { x.put i
          { s with
            registrations := stage.registrations
            start? := none
            gate := s.gate.after (.error stop : Except (Stop CallError) Unit) } with
        database := stage.session.database } := by
  have hs := h.stores i s hi
  have hgate : s.gate.after (.error stop : Except (Stop CallError) Unit) ≠ .started := by
    cases stop with
    | failed e => simp [Gate.after]
    | panicked => exact hs.closed (by rw [hstart]; rfl)
  rcases Seeding.seedKind_cases s.defaults kind s.registrations w x.database with
    ⟨stop', session, heq, hdb⟩ | ⟨-, session, heq, -⟩ | ⟨-, -, session, heq, -⟩
  · obtain ⟨rfl, rfl⟩ := EStateM.Result.error.inj (hseed.symm.trans heq)
    have hready (other : Kind) (hother : (s.registrations.set kind .failed).get other = .ready) :
        s.registrations.get other = .ready := by
      rw [PerKind.get_set] at hother
      split at hother
      · cases hother
      · exact hother
    simp only [hdb]
    exact h.put (i := i) (hs.idle hready hgate)
  · cases hseed.symm.trans heq
  · cases hseed.symm.trans heq

end Stores

section Calls

variable [DecidableEq κ]

theorem pass (h : x.Sound) (c : Call) (hi : x.stores i = some s) (hopen : s.gate.isOpen) (k : κ) :
    Sound { x with calls := Function.update x.calls k (some c.program) } := by
  have hmarked (kind : Kind) := (h.isMarked_of_open hi (by simpa [Gate.isOpen] using hopen) kind).2
  refine ⟨h.migrated, h.unmarked, h.seeded, h.stores, fun k' p hp => ⟨?_, hmarked⟩, h.visits⟩
  by_cases hk : k' = k
  · obtain rfl : c.program = p := by simpa [hk] using hp
    exact c.keepsFrame_program
  · exact (h.calls k' p (by simpa [hk] using hp)).1

/-- A call does its next step. -/
theorem proceed {β : Type} {action : Action CallError β} {next : β → Program CallError Answer}
    (h : x.Sound) (hk : x.calls k = some (.step action next)) (w : Terms) :
    Sound
      { x with
        database := (action.effect w x.database).database
        calls := Function.update x.calls k (some (Program.rest (action.effect w x.database) next))
        visits := x.database :: x.visits } := by
  obtain ⟨hkeeps, hall⟩ := h.calls k _ hk
  cases hkeeps with
  | step ha hn =>
      have hframe := ha w x.database
      have hmarked (kind : Kind) : (action.effect w x.database).database.isMarked kind = true := by
        rw [hframe.isMarked_eq, hall kind]
      refine ⟨h.migrated.of_sameFrame hframe, fun kind hkind => ?_,
        fun kind _ => h.seeded kind (hall kind),
        fun i s hs => (h.stores i s hs).mono fun kind _ => hmarked kind,
        fun k' p hp => ⟨?_, hmarked⟩, fun _ => hmarked⟩
      · rw [hmarked kind] at hkind
        cases hkind
      · by_cases hk' : k' = k
        · obtain rfl : Program.rest (action.effect w x.database) next = p := by simpa [hk'] using hp
          unfold Program.rest
          split
          · exact hn _
          · exact .done _
        · exact (h.calls k' p (by simpa [hk'] using hp)).1

end Calls

variable [DecidableEq σ] [DecidableEq κ]

theorem step (h : x.Sound) (hstep : Step x y) : y.Sound := by
  cases hstep with
  | create d hi => exact h.put (.new d x.database)
  | drop i => exact h.drop i
  | @begin i s hi hidle hclosed =>
      have hput := h.put (i := i) ((h.stores i s hi).begin hclosed x.starts)
      exact ⟨hput.migrated, hput.unmarked, hput.seeded, hput.stores, hput.calls, hput.visits⟩
  | refuse hi hstart => exact h.put ((h.stores _ _ hi).idle (fun _ => id) (by simp))
  | seed hi hstart w hseed => exact h.seed hi hstart hseed
  | fail hi hstart w hseed => exact h.fail hi hstart hseed
  | finish hi hstart => exact h.put ((h.stores _ _ hi).finish hstart)
  | stop hi hidle => exact h.put (h.stores _ _ hi).stop
  | pass c hi hopen hk => exact h.pass c hi hopen _
  | proceed hk w => exact h.proceed hk w

theorem leads (h : x.Sound) (hleads : Leads x y) : y.Sound := by
  induction hleads with
  | refl => exact h
  | tail _ hstep ih => exact ih.step hstep

end Sound

variable [DecidableEq σ] [DecidableEq κ]

/-! ### At a stretch -/

/-- A start that is left alone from here on does what seeding does without others. -/
theorem seedKinds_alone {w : Terms} {session : Session} {stage : Seeding.Stage} {kinds : List Kind}
    {result : Except (Stop CallError) (List KindReport)} (hi : x.stores i = some s)
    (hstart : s.start? = some (n, kinds)) (hs : session.transaction = none) (hw : session.terms = w)
    (hdb : session.database = x.database)
    (hseed : Seeding.seedKinds s.defaults kinds ⟨s.registrations, session⟩ = ended result stage) :
    ∃ y, Leads x y ∧ y.database = stage.session.database ∧ (∀ j, j ≠ i → y.stores j = x.stores j) ∧
      y.stores i = some { s with
        registrations := stage.registrations, start? := none, gate := s.gate.after result } := by
  induction kinds generalizing x s session result with
  | nil =>
      obtain ⟨rfl, rfl⟩ : result = .ok [] ∧ stage = ⟨s.registrations, session⟩ := by
        cases result with
        | ok reports =>
            obtain ⟨rfl, rfl⟩ := EStateM.Result.ok.inj hseed
            exact ⟨rfl, rfl⟩
        | error stop => cases hseed
      exact ⟨_, .single (.finish hi hstart), hdb.symm, fun j hj => by simp [put, hj],
        by simp [put, Gate.after]⟩
  | cons kind rest ih =>
      obtain ⟨report, registrations, s₁, s₂, hfirst, hstep, hsame, hs₁, hw₁⟩ :=
        Seeding.seedKind_session s.defaults kind s.registrations hs
      rw [hw, hdb] at hstep
      rw [Seeding.seedKinds_cons, hfirst] at hseed
      cases report with
      | error stop =>
          obtain ⟨rfl, rfl⟩ : result = .error stop ∧ stage = ⟨registrations, s₁⟩ := by
            cases result with
            | ok reports => cases hseed
            | error stop' =>
                obtain ⟨rfl, rfl⟩ := EStateM.Result.error.inj hseed
                exact ⟨rfl, rfl⟩
          refine ⟨_, .single (.fail hi hstart w hstep), hsame.symm, fun j hj => by simp [put, hj], ?_⟩
          cases stop <;> simp [put, Gate.after]
      | ok report =>
          -- The site after this kind, from which the rest of the start goes on.
          obtain ⟨x₁, hseeded, hdb₁, hothers, hi₁⟩ : ∃ x₁, Step x x₁ ∧ x₁.database = s₂.database ∧
              (∀ j, j ≠ i → x₁.stores j = x.stores j) ∧
              x₁.stores i = some { s with registrations := registrations, start? := some (n, rest) } :=
            ⟨_, .seed hi hstart w hstep, rfl, fun j hj => by simp [put, hj], by simp [put]⟩
          obtain ⟨result', hrest, hresult⟩ : ∃ result',
              Seeding.seedKinds s.defaults rest ⟨registrations, s₁⟩ = ended result' stage ∧
                s.gate.after result = s.gate.after result' := by
            simp only [ended] at hseed
            rcases hrest : Seeding.seedKinds s.defaults rest ⟨registrations, s₁⟩ with
              ⟨reports, stage'⟩ | ⟨stop, stage'⟩
            · rw [hrest] at hseed
              cases result with
              | ok reports' =>
                  obtain ⟨-, rfl⟩ := EStateM.Result.ok.inj hseed
                  exact ⟨.ok reports, rfl, rfl⟩
              | error stop => cases hseed
            · rw [hrest] at hseed
              cases result with
              | ok reports' => cases hseed
              | error stop' =>
                  obtain ⟨rfl, rfl⟩ := EStateM.Result.error.inj hseed
                  exact ⟨.error stop, rfl, by cases stop <;> rfl⟩
          obtain ⟨y, hleads, hy, hothers', hi'⟩ :=
            ih hi₁ rfl hs₁ (hw₁.trans hw) (hsame.trans hdb₁.symm) hrest
          exact ⟨y, .head hseeded hleads, hy, fun j hj => (hothers' j hj).trans (hothers j hj),
            by rw [hi', hresult]⟩

/-- So a start whose steps are done in one stretch seeds the database as a service does behind its
gate, and the gate goes by the result in the same way (`Service.start_of_closed`). -/
theorem start_alone {w : Terms} {stage : Seeding.Stage}
    {result : Except (Stop CallError) (List KindReport)} (hi : x.stores i = some s)
    (hidle : s.start? = none) (hclosed : s.gate ≠ .started)
    (hseed : Seeding.seedAll s.defaults ⟨s.registrations, w.session x.database⟩ = ended result stage) :
    ∃ y, Leads x y ∧ y.database = stage.session.database ∧ (∀ j, j ≠ i → y.stores j = x.stores j) ∧
      y.stores i = some { s with registrations := stage.registrations, gate := s.gate.after result } := by
  obtain ⟨x₁, hbegun, hdb₁, hothers, hi₁⟩ : ∃ x₁, Step x x₁ ∧ x₁.database = x.database ∧
      (∀ j, j ≠ i → x₁.stores j = x.stores j) ∧
      x₁.stores i = some { s with start? := some (x.starts, Kind.all) } :=
    ⟨_, .begin hi hidle hclosed, rfl, fun j hj => by simp [put, hj], by simp [put]⟩
  obtain ⟨y, hleads, hy, hothers', hi'⟩ := seedKinds_alone hi₁ rfl rfl rfl hdb₁.symm hseed
  exact ⟨y, .head hbegun hleads, hy, fun j hj => (hothers' j hj).trans (hothers j hj),
    by rw [hi', hidle]⟩

/-- A call whose steps are done in one stretch has the effect of its program
(`Service.call_of_connects`). -/
theorem call_alone {p : Program CallError Answer} (hk : x.calls k = some p) (w : Terms) :
    ∃ y, Leads x y ∧ y.database = (p.effect w x.database).database ∧
      y.calls k = some (.done (p.effect w x.database).result) := by
  induction p generalizing x with
  | done result => exact ⟨x, .refl, rfl, hk⟩
  | step action next ih =>
      obtain ⟨x₁, hstep, hdb₁, hk₁⟩ : ∃ x₁, Step x x₁ ∧
          x₁.database = (action.effect w x.database).database ∧
          x₁.calls k = some (Program.rest (action.effect w x.database) next) :=
        ⟨_, .proceed hk w, rfl, by simp⟩
      rw [Program.effect_step, ← hdb₁]
      cases hresult : (action.effect w x.database).result with
      | ok b =>
          rw [Program.rest, hresult] at hk₁ ⊢
          obtain ⟨y, hleads, hy, hcalls⟩ := ih b hk₁
          exact ⟨y, .head hstep hleads, hy, hcalls⟩
      | error e =>
          rw [Program.rest, hresult] at hk₁ ⊢
          exact ⟨x₁, .single hstep, rfl, hk₁⟩

/-! ### The result -/

/-- **An open store never serves a partially seeded model.**  All its registrations are ready, and all
kinds are marked.  A kind that is marked was seeded as a whole by one start.  And as long as a kind is
not marked its table is empty, and no call has ever come near the database. -/
theorem started_is_seeded (hleads : Leads (fresh : Site σ κ) x) :
    (∀ i s, x.stores i = some s → s.gate = .started →
      ∀ kind, s.registrations.get kind = .ready ∧ x.database.isMarked kind = true) ∧
    (∀ kind, x.database.isMarked kind = true →
      ∃ u, x.firstUses.filter (·.kind = kind) = [u] ∧ u.IsWhole) ∧
    ∀ kind, x.database.isMarked kind = false →
      (∀ key, x.database.row? kind key = none) ∧ x.visits = [] := by
  have h : x.Sound := Sound.fresh.leads hleads
  refine ⟨fun i s hi hopen => h.isMarked_of_open hi hopen, h.seeded, fun kind hkind => ?_⟩
  refine ⟨(h.unmarked kind hkind).1, ?_⟩
  by_contra hvisits
  rw [h.visits hvisits kind] at hkind
  cases hkind

/-- Defaults of which the second role cannot be added. -/
def twinRoles : Defaults := { users := [{ id := "ada" }], roles := [{ id := "dev" }, { id := "dev" }] }

/-- Two stores on a fresh database, one with these defaults and one with none. -/
def twoStores : Site Bool Unit :=
  ((fresh : Site Bool Unit).put false { defaults := twinRoles }).put true { defaults := {} }

/-- The one fails at the roles, when the users are prepared already, and then the other opens. -/
theorem started_is_seeded_by_two : ∃ x : Site Bool Unit, Leads fresh x ∧
    (∃ s, x.stores false = some s ∧ s.gate = .failed) ∧
    (∃ s, x.stores true = some s ∧ s.gate = .started ∧ ∀ kind, s.registrations.get kind = .ready) ∧
    ∃ u, x.firstUses.filter (·.kind = .user) = [u] ∧ u.IsWhole := by
  have htwo : Leads fresh twoStores := .tail (.single (.create _ rfl)) (.create _ rfl)
  obtain ⟨e, stage₁, hseed₁⟩ : ∃ e stage₁,
      Seeding.seedAll twinRoles ⟨.fill .fresh, Terms.free.session .migrated⟩
        = ended (.error (.failed e)) stage₁ := ⟨_, _, rfl⟩
  obtain ⟨x₁, hfirst, -, hothers, hone⟩ :=
    start_alone (x := twoStores) (i := false) rfl rfl (by decide) hseed₁
  have hleads₁ : Leads fresh x₁ := htwo.trans hfirst
  have hother : x₁.stores true = some { defaults := {} } := hothers true (by decide)
  -- Without any defaults there is nothing that could be in the way.
  have hready : Seeding.Stage.IsReady ⟨.fill .fresh, Terms.free.session x₁.database⟩ Kind.all :=
    ⟨rfl, rfl, fun kind _ => PerKind.get_fill _ kind⟩
  obtain ⟨result, stage₂, hseed₂, hseeded⟩ :=
    Seeding.seedKinds_cases (d := {}) (Sound.fresh.leads hleads₁).migrated hready (by decide)
  obtain ⟨reports, rfl⟩ := hseeded.isOk_iff.mpr fun kind _ _ => by
    cases kind <;> exact acceptable_nil _ _
  obtain ⟨x₂, hsecond, -, hothers₂, htwo₂⟩ := start_alone hother rfl (by decide) hseed₂
  have hleads₂ : Leads fresh x₂ := hleads₁.trans hsecond
  obtain ⟨hopen, hmarked, -⟩ := started_is_seeded hleads₂
  have hready₂ := hopen true _ htwo₂ rfl
  refine ⟨x₂, hleads₂, ⟨_, (hothers₂ false (by decide)).trans hone, rfl⟩,
    ⟨_, htwo₂, rfl, fun kind => (hready₂ kind).1⟩, hmarked .user (hready₂ .user).2⟩

end Site

end AccessStore
