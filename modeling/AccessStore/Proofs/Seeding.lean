/-
What seeding does.

A store that starts registers the four kinds one after another.  For a kind that is not
marked its default records are added one by one, so it depends on all of them, and on the
rows that are there, whether that succeeds: `Acceptable` says when, and `FirstOffence`
which record ends it and why.  What is done to the rows of one kind has no bearing on the
others, so the whole is put together kind by kind.  `seedKinds_cases` is the result: either
all kinds are prepared, or the first one that cannot be ends the matter, and then those
before it are prepared and the rest of the database is what it was.
-/
import Mathlib.Data.List.Find
import AccessStore.Proofs.Additions
import AccessStore.Proofs.Connections
import AccessStore.Proofs.ReadBack
import AccessStore.Seeding

namespace AccessStore

/-! ### The records of one kind -/

/-- Records that can be added one after another to the rows of a kind. -/
structure Acceptable (db : Database) (kind : Kind) (records : List Record) : Prop where
  /-- No identity is blank. -/
  named : ∀ r ∈ records, r.blankIdentity? = none
  /-- No two have the same key. -/
  distinct : (records.map Record.key).Nodup
  /-- No key is taken. -/
  untaken : ∀ r ∈ records, db.row? kind r.key = none

/-- Why a record cannot be added after those before it. -/
inductive Offends (db : Database) (kind : Kind) (before : List Record) (r : Record) :
    StoreError → Prop
  | blank {field : BlankIdentity} (h : r.blankIdentity? = some field) :
      Offends db kind before r (.invalid field)
  | taken (hnamed : r.blankIdentity? = none)
      (h : r.key ∈ before.map Record.key ∨ (db.row? kind r.key).isSome) :
      Offends db kind before r (.duplicateKey kind r.key)

/-- The first of the records that cannot be added cannot be added for this reason. -/
def FirstOffence (db : Database) (kind : Kind) (records : List Record) (e : StoreError) : Prop :=
  ∃ before r after, records = before ++ r :: after ∧ Acceptable db kind before ∧
    Offends db kind before r e

section Adding

variable {db : Database} {kind : Kind} {records : List Record} {e : StoreError}

theorem acceptable_nil (db : Database) (kind : Kind) : Acceptable db kind [] :=
  ⟨by simp, by simp, by simp⟩

/-- Records with an offence among them are not acceptable. -/
theorem FirstOffence.not_acceptable (h : FirstOffence db kind records e) :
    ¬ Acceptable db kind records := by
  intro ha
  obtain ⟨before, r, after, rfl, -, hr⟩ := h
  have hmem : r ∈ before ++ r :: after := List.mem_append_right _ List.mem_cons_self
  cases hr with
  | blank hblank =>
      rw [ha.named r hmem] at hblank
      cases hblank
  | taken hnamed htaken =>
      rcases htaken with hearlier | hrow
      · have hdistinct := ha.distinct
        rw [List.map_append, List.map_cons, List.nodup_append] at hdistinct
        exact hdistinct.2.2 r.key hearlier r.key List.mem_cons_self rfl
      · rw [ha.untaken r hmem] at hrow
        simp at hrow

/-- What adding a record does to a migrated database on free terms. -/
theorem effect_add_free (hm : db.IsMigrated) (r : Record) :
    (Records.add r).effect .free db = match r.blankIdentity? with
      | some field => ⟨.error (.invalid field), db⟩
      | none =>
          if (db.row? r.kind r.key).isSome then ⟨.error (.duplicateKey r.kind r.key), db⟩
          else ⟨.ok Version.initial, db.put r.kind r.key (addedRow r)⟩ := by
  rw [Records.effect_add, hm.writeFault?_free]
  rfl

/-- Records of one kind are addable if they are acceptable and the rows of the kind can be written. -/
theorem Addable.acceptable {w : Terms} (hkind : ∀ r ∈ records, r.kind = kind)
    (h : Addable w db records) : Acceptable db kind records := by
  refine ⟨h.named, ?_, fun r hr => ?_⟩
  · have hspots := h.distinct
    rw [List.Nodup, List.pairwise_map] at hspots ⊢
    refine hspots.imp_of_mem fun {r r'} hr hr' hne hkey => hne ?_
    exact Prod.ext ((hkind r hr).trans (hkind r' hr').symm) hkey
  · rw [← hkind r hr]
    exact h.untaken r hr

/-- The first refusal among records of one kind is the first offence, if the rows of the kind can be
written. -/
theorem FirstRefusal.firstOffence (hm : db.IsMigrated) (hkind : ∀ r ∈ records, r.kind = kind)
    (h : FirstRefusal .free db records e) : FirstOffence db kind records e := by
  obtain ⟨before, r, after, rfl, hbefore, hrefused⟩ := h
  have hbefores : ∀ r' ∈ before, r'.kind = kind := fun r' hr' =>
    hkind r' (List.mem_append_left _ hr')
  have hr : r.kind = kind := hkind r (List.mem_append_right _ List.mem_cons_self)
  refine ⟨before, r, after, rfl, hbefore.acceptable hbefores, ?_⟩
  cases hrefused with
  | blank hblank => exact .blank hblank
  | storage hnamed hfault =>
      rw [hm.writeFault?_free] at hfault
      cases hfault
  | taken hnamed _ htaken =>
      rw [hr] at htaken ⊢
      refine .taken hnamed (htaken.imp_left fun hearlier => ?_)
      obtain ⟨r', hr', hspot⟩ := List.mem_map.mp hearlier
      exact List.mem_map.mpr ⟨r', hr', congrArg Prod.snd hspot⟩

/-- **Records are all added, or the first offence among them is told.** -/
theorem addAll_cases (hm : db.IsMigrated) (hkind : ∀ r ∈ records, r.kind = kind) :
    (Acceptable db kind records ∧
        (Hook.addAll records).effect .free db = ⟨.ok (), db.grown records⟩) ∨
      ∃ e, FirstOffence db kind records e ∧
        ((Hook.addAll records).effect .free db).result = .error e := by
  rcases effect_addAll_cases .free db records with ⟨ha, heffect⟩ | ⟨e, hrefusal, herror⟩
  · exact .inl ⟨ha.acceptable hkind, heffect⟩
  · exact .inr ⟨e, hrefusal.firstOffence hm hkind, herror⟩

/-- What is there of a kind once records of the kind have been added: each under its key, and besides
them what was there before. -/
theorem row?_grown (hkind : ∀ r ∈ records, r.kind = kind) (ht : (db.table? kind).isSome)
    (hdistinct : (records.map Record.key).Nodup) (k : Key) :
    (db.grown records).row? kind k = match records.find? (·.key = k) with
      | some r => some (addedRow r)
      | none => db.row? kind k := by
  have htables : ∀ r ∈ records, (db.table? r.kind).isSome := by
    intro r hr
    rwa [hkind r hr]
  have hspots : (records.map Record.spot).Nodup := by
    rw [List.Nodup, List.pairwise_map] at hdistinct ⊢
    exact hdistinct.imp fun hne hspot => hne (congrArg Prod.snd hspot)
  have hfind : records.find? (·.spot = (kind, k)) = records.find? (·.key = k) := by
    refine List.find?_congr fun r hr => ?_
    simp [Record.spot, hkind r hr]
  have hgrown := Database.row?_grown htables hspots kind k
  rw [hfind] at hgrown
  exact hgrown

end Adding

/-! ### Registering in a session -/

namespace Registration

variable {s : Session}

/-- Preparing a kind goes on from a session by its effect, whatever was told before. -/
theorem register_fresh (kind : Kind) (hook : Hook) (hs : s.transaction = none) :
    ∃ told ran, register .fresh kind hook s
      = ⟨((prepare kind hook).effect s.terms s.database).result.mapError Unprepared.stop, ran,
          after ((prepare kind hook).effect s.terms s.database).result,
          s.onward ((prepare kind hook).effect s.terms s.database).database told⟩ := by
  have hbody := Action.plain_bind (plain_mark kind) (plain_seed kind hook)
  obtain ⟨told, ht⟩ := Action.atomic_resume .refused hbody hs
  rw [← prepare_eq] at ht
  refine ⟨told, ?_⟩
  rw [register, settled?]
  simp only [ht, Session.resume]
  rcases (prepare kind hook).effect s.terms s.database with ⟨result, db⟩
  cases result with
  | ok first => exact ⟨_, rfl⟩
  | error e => exact ⟨_, rfl⟩

end Registration

namespace Seeding

open Registration

variable {d : Defaults} {kind : Kind} {stage : Stage}

/-- What preparing a kind with its defaults does. -/
def preparing (d : Defaults) (kind : Kind) (w : Terms) (db : Database) : Outcome Unprepared Bool :=
  (prepare kind (hook kind (d.records kind))).effect w db

/-- The report of a kind, where it was prepared or had been before. -/
def reportOf (d : Defaults) (kind : Kind) (first : Bool) : KindReport :=
  ⟨kind, first, if first then (d.records kind).length else 0⟩

theorem seedKind_fresh (hfresh : stage.registrations.get kind = .fresh)
    (hs : stage.session.transaction = none) :
    ∃ told, seedKind d kind stage
      = ended
          (match (preparing d kind stage.session.terms stage.session.database).result with
            | .ok first => .ok (reportOf d kind first)
            | .error e => .error (e.stop.map (.seeding kind)))
          ⟨stage.registrations.set kind
              (after (preparing d kind stage.session.terms stage.session.database).result),
            stage.session.onward
              (preparing d kind stage.session.terms stage.session.database).database told⟩ := by
  obtain ⟨told, ran, hregister⟩ := register_fresh kind (hook kind (d.records kind)) hs
  refine ⟨told, ?_⟩
  rw [seedKind, hfresh, hregister]
  show _ = ended (match (preparing d kind _ _).result with | .ok _ => _ | .error _ => _) _
  unfold preparing
  rcases (prepare kind (hook kind (d.records kind))).effect stage.session.terms
    stage.session.database with ⟨result, db⟩
  cases result <;> rfl

/-- A store that has settled the matter does nothing. -/
theorem seedKind_settled (hsettled : stage.registrations.get kind ≠ .fresh) :
    ∃ result registrations, seedKind d kind stage = ended result ⟨registrations, stage.session⟩ := by
  rw [seedKind]
  cases h : stage.registrations.get kind with
  | fresh => exact absurd h hsettled
  | ready => exact ⟨.ok (reportOf d kind false), _, rfl⟩
  | failed => exact ⟨.error _, _, rfl⟩

theorem seedKinds_cons (d : Defaults) (kind : Kind) (rest : List Kind) (stage : Stage) :
    seedKinds d (kind :: rest) stage = match seedKind d kind stage with
      | .error stop stage => .error stop stage
      | .ok report stage => match seedKinds d rest stage with
        | .error stop stage => .error stop stage
        | .ok reports stage => .ok (report :: reports) stage := by
  rw [seedKinds]
  rcases hkind : seedKind d kind stage with ⟨report, stage₁⟩ | ⟨stop, stage₁⟩
  · rcases hrest : seedKinds d rest stage₁ with ⟨reports, stage₂⟩ | ⟨stop, stage₂⟩ <;>
      simp [bind, EStateM.bind, pure, EStateM.pure, hkind, hrest]
  · simp [bind, EStateM.bind, hkind]

/-- **What holds of a database whenever a kind is prepared holds after seeding**, whatever the store
remembers and on whatever terms it works. -/
theorem seedKinds_keeps {P : Database → Prop}
    (hP : ∀ kind w db, P db → P (preparing d kind w db).database) (kinds : List Kind) (stage : Stage)
    (hs : stage.session.transaction = none) (hdb : P stage.session.database) :
    ∃ result stage', seedKinds d kinds stage = ended result stage' ∧ P stage'.session.database := by
  induction kinds generalizing stage with
  | nil => exact ⟨.ok [], stage, rfl, hdb⟩
  | cons kind rest ih =>
      have hkind : ∃ result stage', seedKind d kind stage = ended result stage' ∧
          stage'.session.transaction = none ∧ P stage'.session.database := by
        by_cases hfresh : stage.registrations.get kind = .fresh
        · obtain ⟨told, hseed⟩ := seedKind_fresh (d := d) hfresh hs
          refine ⟨_, _, hseed, ?_, ?_⟩
          · simp [Session.onward, Session.setView, hs]
          · have hkept := hP kind stage.session.terms _ hdb
            simpa [Session.onward, Session.setView, hs] using hkept
        · obtain ⟨result, registrations, hseed⟩ := seedKind_settled (d := d) hfresh
          exact ⟨_, _, hseed, hs, hdb⟩
      obtain ⟨result, stage₁, hseed, hs₁, hdb₁⟩ := hkind
      rw [seedKinds_cons, hseed]
      cases result with
      | error stop => exact ⟨.error stop, stage₁, rfl, hdb₁⟩
      | ok report =>
          obtain ⟨result, stage₂, hrest, hdb₂⟩ := ih stage₁ hs₁ hdb₁
          simp only [ended, hrest]
          cases result with
          | error stop => exact ⟨.error stop, stage₂, rfl, hdb₂⟩
          | ok reports => exact ⟨.ok (report :: reports), stage₂, rfl, hdb₂⟩

/-! ### The outcome for all kinds -/

section Outcome

variable {db db₁ db₂ : Database} {kinds rest : List Kind}

/-- The defaults of a kind can be added if they are needed. -/
def Accepts (d : Defaults) (db : Database) (kind : Kind) : Prop :=
  db.isMarked kind = false → Acceptable db kind (d.records kind)

/-- What has become of a database in which these kinds were prepared. -/
structure Prepared (d : Defaults) (kinds : List Kind) (db db' : Database) : Prop where
  migrated : db'.IsMigrated
  /-- These kinds are marked now, and besides them those that were. -/
  marked : ∀ kind, db'.isMarked kind = (db.isMarked kind || decide (kind ∈ kinds))
  /-- The table of a kind that was not prepared, or had been before, is what it was. -/
  kept : ∀ kind, kind ∉ kinds ∨ db.isMarked kind = true → db'.table? kind = db.table? kind
  /-- The table of another one has gained the defaults, at the first version. -/
  gained : ∀ kind ∈ kinds, db.isMarked kind = false → ∀ key,
    db'.row? kind key = match (d.records kind).find? (·.key = key) with
      | some r => some (addedRow r)
      | none => db.row? kind key

theorem Prepared.nil (d : Defaults) (hm : db.IsMigrated) : Prepared d [] db db :=
  ⟨hm, fun kind => by simp, fun _ _ => rfl, fun kind hkind => by simp at hkind⟩

/-- Rows depend on the table alone. -/
theorem row?_congr (h : db₁.table? kind = db.table? kind) (key : Key) :
    db₁.row? kind key = db.row? kind key := by
  rw [Database.row?, Database.row?, h]

/-- First one kind was prepared, then the others. -/
theorem Prepared.cons (h₁ : Prepared d [kind] db db₁) (h₂ : Prepared d rest db₁ db₂)
    (hkind : kind ∉ rest) : Prepared d (kind :: rest) db db₂ := by
  refine ⟨h₂.migrated, ?_, ?_, ?_⟩
  · intro other
    rw [h₂.marked, h₁.marked]
    simp [Bool.or_assoc]
  · intro other hother
    have hfirst : other ∉ [kind] ∨ db.isMarked other = true := by
      refine hother.imp_left ?_
      intro hout
      simp only [List.mem_cons, not_or] at hout ⊢
      exact ⟨hout.1, by simp⟩
    have hlast : other ∉ rest ∨ db₁.isMarked other = true := by
      refine hother.imp (fun hout hmem => hout (List.mem_cons_of_mem _ hmem)) ?_
      intro hmarked
      rw [h₁.marked, hmarked, Bool.true_or]
    rw [h₂.kept other hlast, h₁.kept other hfirst]
  · intro other hother hfresh key
    rcases List.mem_cons.mp hother with rfl | hrest
    · rw [row?_congr (h₂.kept other (.inl hkind))]
      exact h₁.gained other List.mem_cons_self hfresh key
    · have hne : other ∉ [kind] := by
        rw [List.mem_singleton]
        rintro rfl
        exact hkind hrest
      have hfresh₁ : db₁.isMarked other = false := by
        rw [h₁.marked, hfresh, decide_eq_false hne]
        rfl
      rw [h₂.gained other hrest hfresh₁ key, row?_congr (h₁.kept other (.inl hne))]

/-- What is prepared of other kinds does not matter to one that is still to be. -/
theorem Prepared.isMarked_eq (h : Prepared d kinds db db₁) (hkind : kind ∉ kinds) :
    db₁.isMarked kind = db.isMarked kind := by
  rw [h.marked, decide_eq_false hkind, Bool.or_false]

theorem Prepared.acceptable_iff (h : Prepared d kinds db db₁) (hkind : kind ∉ kinds)
    (records : List Record) : Acceptable db₁ kind records ↔ Acceptable db kind records := by
  have hrow := row?_congr (h.kept kind (.inl hkind))
  constructor
  · intro ha
    exact ⟨ha.named, ha.distinct, fun r hr => by rw [← hrow, ha.untaken r hr]⟩
  · intro ha
    exact ⟨ha.named, ha.distinct, fun r hr => by rw [hrow, ha.untaken r hr]⟩

theorem Prepared.accepts_iff (h : Prepared d kinds db db₁) (hkind : kind ∉ kinds) :
    Accepts d db₁ kind ↔ Accepts d db kind := by
  rw [Accepts, Accepts, h.isMarked_eq hkind, h.acceptable_iff hkind]

theorem Prepared.firstOffence (h : Prepared d kinds db db₁) (hkind : kind ∉ kinds)
    {records : List Record} {e : StoreError} (ho : FirstOffence db₁ kind records e) :
    FirstOffence db kind records e := by
  obtain ⟨before, r, after, hsplit, hbefore, hoffends⟩ := ho
  refine ⟨before, r, after, hsplit, (h.acceptable_iff hkind before).mp hbefore, ?_⟩
  cases hoffends with
  | blank hblank => exact .blank hblank
  | taken hnamed htaken =>
      rw [row?_congr (h.kept kind (.inl hkind))] at htaken
      exact .taken hnamed htaken

/-- What the hook of a kind does. -/
theorem effect_hook (kind : Kind) (records : List Record) (w : Terms) (db : Database) :
    (hook kind records).run.effect w db
      = ((Hook.addAll records).effect w db).mapError .failed := by
  rw [Hook.effect_run]
  show ((Hook.addAll records).effect w db |>.mapError Stop.failed).andThen _ = _
  rcases (Hook.addAll records).effect w db with ⟨result, db'⟩
  cases result <;> rfl

/-- The three ways in which it can go with one kind: there is nothing to do, its defaults are added,
or one of them offends. -/
theorem preparing_cases (d : Defaults) (kind : Kind) (hm : db.IsMigrated) :
    (db.isMarked kind = true ∧ preparing d kind .free db = ⟨.ok false, db⟩) ∨
      (db.isMarked kind = false ∧ Acceptable db kind (d.records kind) ∧
        preparing d kind .free db = ⟨.ok true, (db.mark kind).grown (d.records kind)⟩) ∨
      (db.isMarked kind = false ∧ ∃ e, FirstOffence db kind (d.records kind) e ∧
        preparing d kind .free db = ⟨.error (.byHook (.failed e)), db⟩) := by
  have hbarrier : Terms.free.barrier? = none := rfl
  rw [preparing, effect_prepare, hbarrier, hm.markFault?_free]
  cases hmarked : db.isMarked kind with
  | true => exact .inl ⟨rfl, rfl⟩
  | false =>
      -- The hook works on the rows as they were, in a database in which the kind is marked.
      have hkind : ∀ r ∈ d.records kind, r.kind = kind := fun r hr =>
        Defaults.kind_of_mem_records hr
      have hadd := addAll_cases (hm.mark kind) hkind
      simp only [effect_hook, Bool.false_eq_true, if_false]
      right
      rcases hadd with ⟨ha, heffect⟩ | ⟨e, ho, herror⟩
      · left
        rw [heffect]
        exact ⟨trivial, ⟨ha.named, ha.distinct, ha.untaken⟩, rfl⟩
      · right
        refine ⟨trivial, e, ?_, ?_⟩
        · obtain ⟨before, r, after, hsplit, hbefore, hoffends⟩ := ho
          refine ⟨before, r, after, hsplit, ⟨hbefore.named, hbefore.distinct, hbefore.untaken⟩, ?_⟩
          cases hoffends with
          | blank hblank => exact .blank hblank
          | taken hnamed htaken => exact .taken hnamed htaken
        · rcases ho' : (Hook.addAll (d.records kind)).effect .free (db.mark kind) with ⟨result, db'⟩
          rw [ho'] at herror
          have hresult : result = .error e := herror
          rw [hresult]
          rfl

/-- A kind that was marked needs no preparing. -/
theorem prepared_marked (hm : db.IsMigrated) (hmarked : db.isMarked kind = true) :
    Prepared d [kind] db db := by
  refine ⟨hm, ?_, fun _ _ => rfl, ?_⟩
  · intro other
    by_cases hother : other = kind
    · simp [hother, hmarked]
    · simp [hother]
  · intro other hother hfresh
    rw [List.mem_singleton.mp hother, hmarked] at hfresh
    cases hfresh

/-- A kind whose defaults were added has been prepared. -/
theorem prepared_grown (hm : db.IsMigrated) (hfresh : db.isMarked kind = false)
    (ha : Acceptable db kind (d.records kind)) :
    Prepared d [kind] db ((db.mark kind).grown (d.records kind)) := by
  have hkind : ∀ r ∈ d.records kind, r.kind = kind := fun r hr => Defaults.kind_of_mem_records hr
  have hedited : Edited (fun other _ => other = kind) (db.mark kind)
      ((db.mark kind).grown (d.records kind)) := Database.edited_grown hkind ha.named _
  refine ⟨(hm.mark kind).of_edited hedited, ?_, ?_, ?_⟩
  · intro other
    have hmarks : ((db.mark kind).grown (d.records kind)).isMarked other
        = (db.mark kind).isMarked other := by
      rw [Database.isMarked, hedited.markers]
      rfl
    rw [hmarks, Database.isMarked_mark hm.markers]
    simp
  · intro other hother
    have hne : other ≠ kind := by
      rintro rfl
      simp [hfresh] at hother
    exact hedited.table?_eq fun _ => hne
  · intro other hother _ key
    rw [List.mem_singleton.mp hother]
    exact row?_grown hkind ((hm.mark kind).tables kind) ha.distinct key

/-- The report of a kind that had been prepared before or not. -/
def report (d : Defaults) (db : Database) (kind : Kind) : KindReport :=
  reportOf d kind (!db.isMarked kind)

/-- A stage at which nothing is in the way of preparing these kinds. -/
structure Stage.IsReady (stage : Stage) (kinds : List Kind) : Prop where
  terms : stage.session.terms = .free
  transaction : stage.session.transaction = none
  fresh : ∀ kind ∈ kinds, stage.registrations.get kind = .fresh

/-- A stage once a kind has been dealt with. -/
theorem Stage.IsReady.next (h : stage.IsReady (kind :: rest)) (hkind : kind ∉ rest)
    (registration : Registration) (db : Database) (told : List Event) :
    Stage.IsReady ⟨stage.registrations.set kind registration, stage.session.onward db told⟩ rest := by
  refine ⟨?_, ?_, ?_⟩
  · rw [Session.terms_onward, h.terms]
  · simp [Session.onward, Session.setView, h.transaction]
  · intro other hother
    have hne : other ≠ kind := by
      rintro rfl
      exact hkind hother
    rw [PerKind.get_set_ne _ _ hne]
    exact h.fresh other (List.mem_cons_of_mem _ hother)

theorem database_onward {s : Session} (hs : s.transaction = none) (db : Database)
    (told : List Event) : (s.onward db told).database = db := by
  simp [Session.onward, Session.setView, hs]

/-- What comes of seeding these kinds, from some content on. -/
inductive Seeded (d : Defaults) (kinds : List Kind) (db : Database) :
    Except (Stop CallError) (List KindReport) → Database → Prop
  /-- All of them accept their defaults, and all are prepared. -/
  | all {db' : Database} (ha : ∀ kind ∈ kinds, Accepts d db kind) (hp : Prepared d kinds db db') :
      Seeded d kinds db (.ok (kinds.map (report d db))) db'
  /-- One does not.  Those before it do and are prepared. -/
  | upTo {done later : List Kind} {kind : Kind} {e : StoreError} {db' : Database}
      (hsplit : kinds = done ++ kind :: later) (ha : ∀ kind ∈ done, Accepts d db kind)
      (hfresh : db.isMarked kind = false) (ho : FirstOffence db kind (d.records kind) e)
      (hp : Prepared d done db db') :
      Seeded d kinds db (.error (.failed (.seeding kind e))) db'

/-- The first kind was prepared, and this comes of the others. -/
theorem Seeded.cons {result : Except (Stop CallError) (List KindReport)} (hkind : kind ∉ rest)
    (ha : Accepts d db kind) (h₁ : Prepared d [kind] db db₁) (h₂ : Seeded d rest db₁ result db₂) :
    Seeded d (kind :: rest) db (result.map (report d db kind :: ·)) db₂ := by
  have hout (other : Kind) (hother : other ∈ rest) : other ∉ [kind] := by
    rw [List.mem_singleton]
    rintro rfl
    exact hkind hother
  cases h₂ with
  | all ha₂ hp =>
      have hreports : rest.map (report d db₁) = rest.map (report d db) := by
        apply List.map_congr_left
        intro other hother
        rw [report, report, h₁.isMarked_eq (hout other hother)]
      rw [hreports]
      refine .all ?_ (h₁.cons hp hkind)
      intro other hother
      rcases List.mem_cons.mp hother with rfl | hrest
      · exact ha
      · exact (h₁.accepts_iff (hout other hrest)).mp (ha₂ other hrest)
  | @upTo done later offending e _ hsplit ha₂ hfresh ho hp =>
      have hdone (other : Kind) (hother : other ∈ done) : other ∈ rest :=
        hsplit ▸ List.mem_append_left _ hother
      have hoffending : offending ∉ [kind] := by
        refine hout offending ?_
        rw [hsplit]
        exact List.mem_append_right _ List.mem_cons_self
      have hsplit' : kind :: rest = (kind :: done) ++ offending :: later := by
        rw [hsplit, List.cons_append]
      refine .upTo hsplit' ?_ ?_ (h₁.firstOffence hoffending ho)
        (h₁.cons hp fun hmem => hkind (hdone kind hmem))
      · intro other hother
        rcases List.mem_cons.mp hother with rfl | hother
        · exact ha
        · exact (h₁.accepts_iff (hout other (hdone other hother))).mp (ha₂ other hother)
      · rw [← h₁.isMarked_eq hoffending, hfresh]

/-- **Kinds are prepared one after another, up to the first whose defaults offend.** -/
theorem seedKinds_cases (hm : stage.session.database.IsMigrated) (hready : stage.IsReady kinds)
    (hdistinct : kinds.Nodup) :
    ∃ result stage', seedKinds d kinds stage = ended result stage' ∧
      Seeded d kinds stage.session.database result stage'.session.database := by
  induction kinds generalizing stage with
  | nil => exact ⟨.ok [], stage, rfl, .all (by simp) (.nil d hm)⟩
  | cons kind rest ih =>
      obtain ⟨hkind, hrest⟩ := List.nodup_cons.mp hdistinct
      obtain ⟨told, hseed⟩ := seedKind_fresh (d := d) (hready.fresh kind List.mem_cons_self)
        hready.transaction
      rw [hready.terms] at hseed
      -- The step for one kind is the same whether it was marked or its defaults are added.
      have hstep {first : Bool} {db' : Database} (hfirst : first = !stage.session.database.isMarked kind)
          (hpreparing : preparing d kind .free stage.session.database = ⟨.ok first, db'⟩)
          (ha : Accepts d stage.session.database kind)
          (hp : Prepared d [kind] stage.session.database db') :
          ∃ result stage', seedKinds d (kind :: rest) stage = ended result stage' ∧
            Seeded d (kind :: rest) stage.session.database result stage'.session.database := by
        rw [hpreparing] at hseed
        have hready' := hready.next hkind (Registration.after (.ok first)) db' told
        have hdb := database_onward hready.transaction db' told
        have hmigrated := hp.migrated
        rw [← hdb] at hmigrated hp
        obtain ⟨result, stage₂, hseeds, hseeded⟩ := ih hmigrated hready' hrest
        refine ⟨result.map (report d stage.session.database kind :: ·), stage₂, ?_,
          hseeded.cons hkind ha hp⟩
        rw [seedKinds_cons, hseed]
        simp only [ended, hseeds]
        cases result with
        | ok reports =>
            rw [hfirst]
            rfl
        | error stop => rfl
      rcases preparing_cases d kind hm with ⟨hmarked, hp⟩ | ⟨hfresh, ha, hp⟩ | ⟨hfresh, e, ho, hp⟩
      · refine hstep (by rw [hmarked]; rfl) hp ?_ (prepared_marked hm hmarked)
        intro h
        rw [hmarked] at h
        cases h
      · exact hstep (by rw [hfresh]; rfl) hp (fun _ => ha) (prepared_grown hm hfresh ha)
      · rw [hp] at hseed
        have hkept : Prepared d [] stage.session.database
            (stage.session.onward stage.session.database told).database := by
          rw [database_onward hready.transaction]
          exact .nil d hm
        refine ⟨.error (.failed (.seeding kind e)),
          ⟨stage.registrations.set kind .failed,
            stage.session.onward stage.session.database told⟩,
          ?_, .upTo (List.nil_append _).symm (by simp) hfresh ho hkept⟩
        rw [seedKinds_cons, hseed]
        rfl

end Outcome

end Seeding

end AccessStore
