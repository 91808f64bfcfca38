/-
Calls whose steps are interleaved.

Any number of calls are made on one database.  Each begins at some time and then does its
steps one by one, and in between the others do theirs.  A schedule says whose turn it is
each time, so what holds for all schedules holds however the clients get in one another's
way.

The result is that it is as if the calls had been made one after another, each as a
whole; that is `Linearizes`.  The order is that in which they did their last steps, which
lies between the beginning and the end of each call.  Left out are the calls that were
refused as stale; these have changed nothing, and they were refused for a reason, which
is `RightlyRefused`.
-/
import Mathlib.Data.List.Induction
import AccessStore.Proofs.Underway

namespace AccessStore

/-- Calls on one database while they are being made: its content, and what is left of the calls
that have begun. -/
structure Play (ι : Type) where
  database : Database
  rest? : ι → Option (Program CallError Answer)

namespace Play

variable {ι : Type} {p : Play ι} {i j k : ι} {reply : Except CallError Answer}

/-- What a call has answered, if it has come to its end. -/
def reply? (p : Play ι) (i : ι) : Option (Except CallError Answer) :=
  match p.rest? i with
  | some (.done reply) => some reply
  | _ => none

/-- The call has begun and has not ended. -/
def IsUnderway (p : Play ι) (i : ι) : Prop := (p.rest? i).isSome ∧ p.reply? i = none

theorem rest?_of_reply? (h : p.reply? i = some reply) : p.rest? i = some (.done reply) := by
  unfold reply? at h
  split at h
  · rename_i hrest
    rw [hrest, Option.some.inj h]
  · simp at h

variable [DecidableEq ι] {calls : ι → Call} {db : Database} {schedule early late : List ι}

/-- The content is now this one, and this is left of a call. -/
def leave (p : Play ι) (i : ι) (db : Database) (rest : Program CallError Answer) : Play ι :=
  ⟨db, fun j => if j = i then some rest else p.rest? j⟩

/-- A call's turn: it begins, or it does its next step if there is one. -/
def turn (calls : ι → Call) (p : Play ι) (i : ι) : Play ι :=
  match p.rest? i with
  | none => p.leave i p.database (calls i).program
  | some (.done _) => p
  | some (.step action next) =>
      let o := action.effect .free p.database
      p.leave i o.database (Program.rest o next)

/-- What becomes of calls on a database if they take turns like this. -/
def run (calls : ι → Call) (db : Database) (schedule : List ι) : Play ι :=
  schedule.foldl (turn calls) ⟨db, fun _ => none⟩

@[simp] theorem run_nil : run calls db [] = ⟨db, fun _ => none⟩ := rfl

theorem run_concat (schedule : List ι) (i : ι) :
    run calls db (schedule ++ [i]) = turn calls (run calls db schedule) i := by
  simp [run]

/-! ### Whose turn it is not -/

theorem rest?_turn_ne (h : j ≠ i) : (turn calls p i).rest? j = p.rest? j := by
  unfold turn
  split
  · simp [leave, h]
  · rfl
  · simp [leave, h]

theorem reply?_turn_ne (h : j ≠ i) : (turn calls p i).reply? j = p.reply? j := by
  rw [reply?, rest?_turn_ne h]
  rfl

/-- After its end a call does nothing more. -/
theorem turn_of_reply? (h : p.reply? i = some reply) : turn calls p i = p := by
  rw [turn, rest?_of_reply? h]

theorem reply?_turn (h : p.reply? i = some reply) (j : ι) :
    (turn calls p j).reply? i = some reply := by
  by_cases hij : i = j
  · rw [← hij, turn_of_reply? h, h]
  · rw [reply?_turn_ne hij, h]

/-- An answer stays what it is. -/
theorem reply?_of_earlier (hpre : early <+: late)
    (h : (run calls db early).reply? i = some reply) :
    (run calls db late).reply? i = some reply := by
  induction late using List.reverseRecOn with
  | nil => rwa [List.prefix_nil.mp hpre] at h
  | append_singleton late j ih =>
      rcases List.prefix_concat_iff.mp hpre with rfl | hearly
      · exact h
      · rw [run_concat]
        exact reply?_turn (ih hearly) j

theorem isSome_rest?_turn (h : (p.rest? i).isSome) (j : ι) :
    ((turn calls p j).rest? i).isSome := by
  by_cases hij : i = j
  · subst hij
    unfold turn
    split
    · simp [leave]
    · exact h
    · simp [leave]
  · rwa [rest?_turn_ne hij]

/-- A call that has begun has begun for good. -/
theorem isSome_rest?_of_earlier (hpre : early <+: late)
    (h : ((run calls db early).rest? i).isSome) : ((run calls db late).rest? i).isSome := by
  induction late using List.reverseRecOn with
  | nil => rwa [List.prefix_nil.mp hpre] at h
  | append_singleton late j ih =>
      rcases List.prefix_concat_iff.mp hpre with rfl | hearly
      · exact h
      · rw [run_concat]
        exact isSome_rest?_turn (ih hearly) j

/-! ### Whose turn it is -/

/-- What a turn does that does not end the call: nothing to the content. -/
structure GoesOn (calls : ι → Call) (excuse : Database → Prop) (p p' : Play ι) (i : ι) : Prop where
  database : p'.database = p.database
  reply? : p'.reply? i = none
  isRest : ∀ q, p'.rest? i = some q → (calls i).IsRest excuse q

/-- What a turn does that ends the call as if the whole call had been made in this turn. -/
structure Serves (calls : ι → Call) (p p' : Play ι) (i : ι) (reply : Except CallError Answer) :
    Prop where
  reply? : p'.reply? i = some reply
  not_stale : ¬ Call.Stale reply
  effect : (calls i).program.effect .free p.database = ⟨reply, p'.database⟩

/-- What a turn does that ends the call because it is stale: again nothing to the content. -/
structure Refuses (calls : ι → Call) (excuse : Database → Prop) (p p' : Play ι) (i : ι)
    (reply : Except CallError Answer) : Prop where
  reply? : p'.reply? i = some reply
  stale : Call.Stale reply
  database : p'.database = p.database
  cause : excuse p.database ∨ (calls i).Outdated p.database

theorem leave_reply? (q : Program CallError Answer) :
    (p.leave i db q).reply? i = match q with
      | .done reply => some reply
      | .step _ _ => none := by
  simp only [reply?, leave, if_true]
  cases q <;> rfl

/-- A call that comes to an end with its last step was served or refused in it. -/
theorem serves_or_refuses {excuse : Database → Prop} {q : Program CallError Answer}
    (hcompletes : (calls i).Completes excuse q p.database)
    (hend : q.effect .free p.database = ⟨reply, db⟩) :
    Serves calls p (p.leave i db (.done reply)) i reply ∨
      Refuses calls excuse p (p.leave i db (.done reply)) i reply := by
  have hreply : (p.leave i db (.done reply)).reply? i = some reply := leave_reply? _
  rcases hcompletes with hwhole | ⟨hstale, hdb, hexcuse⟩
  · rw [hend] at hwhole
    by_cases hstale : Call.Stale reply
    · -- The whole call would have been refused as well, and would have changed nothing.
      have hstale' : Call.Stale ((calls i).program.effect .free p.database).result := by
        rwa [← hwhole]
      have hkept : ((calls i).program.effect .free p.database).database = p.database := by
        obtain ⟨kind, key, herror⟩ := hstale'
        exact Call.harmless_program _ _ _ _ herror
      rw [← hwhole] at hkept
      exact .inr ⟨hreply, hstale, hkept, .inr (Call.outdated_of_stale _ hstale')⟩
    · exact .inl ⟨hreply, hstale, hwhole.symm⟩
  · rw [hend] at hstale hdb
    exact .inr ⟨hreply, hstale, hdb, .inl hexcuse⟩

/-- A call does not find itself outdated before it has looked. -/
theorem not_stale_of_program {c : Call} (h : c.program = .done reply) : ¬ Call.Stale reply := by
  intro hstale
  have heffect : c.program.effect .free .blank = ⟨reply, .blank⟩ := by
    rw [h]
    rfl
  have hrun : Call.Stale (c.program.effect .free .blank).result := by rwa [heffect]
  obtain ⟨r, row, -, hrow, -⟩ := c.outdated_of_stale hrun
  cases hk : r.kind <;> simp [Database.row?, Database.table?, Database.blank, PerKind.fill,
    PerKind.get, hk] at hrow

/-- What is left after a step that is not the last one, and what that step does. -/
theorem rest_of_not_isDone {c : Call} {β : Type} {excuse : Database → Prop}
    {action : Action CallError β} {next : β → Program CallError Answer}
    (hrest : c.IsRest excuse (.step action next))
    (hopen : ¬ (Program.rest (action.effect .free db) next).IsDone) :
    (action.effect .free db).database = db ∧
      c.IsRest (fun later => excuse db ∨ excuse later ∨ c.row? db ≠ c.row? later)
        (Program.rest (action.effect .free db) next) := by
  rcases ho : action.effect .free db with ⟨result, db'⟩
  rw [ho] at hopen
  cases result with
  | error e => exact absurd trivial hopen
  | ok b => exact (hrest.2 db b db' ho).resolve_left hopen

/-- **A turn of a call that has not ended serves it, refuses it, or changes nothing.** -/
theorem turn_cases {excuse : Database → Prop} (hopen : p.reply? i = none)
    (hrest : ∀ q, p.rest? i = some q → (calls i).IsRest excuse q) :
    GoesOn calls (fun later => p.IsUnderway i ∧ (excuse p.database ∨ excuse later ∨
        (calls i).row? p.database ≠ (calls i).row? later)) p (turn calls p i) i ∨
      (∃ reply, Serves calls p (turn calls p i) i reply) ∨
      (∃ reply, p.IsUnderway i ∧ Refuses calls excuse p (turn calls p i) i reply) := by
  unfold turn
  cases hbegun : p.rest? i with
  | none =>
      cases hprogram : (calls i).program with
      | done reply =>
          refine .inr (.inl ⟨reply, leave_reply? _, not_stale_of_program hprogram, ?_⟩)
          rw [hprogram]
          rfl
      | step action next =>
          refine .inl ⟨rfl, leave_reply? _, fun q hq => ?_⟩
          simp only [leave, if_true, Option.some.injEq] at hq
          rw [← hq, ← hprogram]
          exact (Call.isRest_program (calls i)).mono fun _ h => h.elim
  | some q =>
      cases q with
      | done reply => simp [reply?, hbegun] at hopen
      | step action next =>
          have hunderway : p.IsUnderway i := ⟨by simp [hbegun], hopen⟩
          have hstep := Program.effect_step action next .free p.database
          by_cases hdone : (Program.rest (action.effect .free p.database) next).IsDone
          · obtain ⟨reply, hreply⟩ := Program.isDone_iff.mp hdone
            right
            simp only [hreply] at hstep ⊢
            rcases serves_or_refuses ((hrest _ hbegun).1 p.database) hstep with h | h
            · exact .inl ⟨reply, h⟩
            · exact .inr ⟨reply, hunderway, h⟩
          · obtain ⟨hdb, hleft⟩ := rest_of_not_isDone (hrest _ hbegun) hdone
            refine .inl ⟨hdb, ?_, fun q hq => ?_⟩
            · rw [leave_reply?]
              cases hq : Program.rest (action.effect .free p.database) next with
              | done reply => exact absurd (by rw [hq]; trivial) hdone
              | step _ _ => rfl
            · simp only [leave, if_true, Option.some.injEq] at hq
              rw [← hq]
              exact hleft.mono fun later h => ⟨hunderway, h⟩

/-! ### Why a call is refused -/

/-- The call's row changed while it was under way. -/
def Contested (calls : ι → Call) (db : Database) (schedule : List ι) (i : ι) : Prop :=
  ∃ early late, early <+: late ∧ late <+: schedule ∧ (run calls db early).IsUnderway i ∧
    (run calls db late).IsUnderway i ∧
    (calls i).row? (run calls db early).database ≠ (calls i).row? (run calls db late).database

/-- At some time when the call was under way, it carried another version than the stored one. -/
def FoundOutdated (calls : ι → Call) (db : Database) (schedule : List ι) (i : ι) : Prop :=
  ∃ pre, pre <+: schedule ∧ (run calls db pre).IsUnderway i ∧
    (calls i).Outdated (run calls db pre).database

/-- What excuses a call that gives up when the content is this one. -/
def Excuse (calls : ι → Call) (db : Database) (schedule : List ι) (i : ι) (later : Database) : Prop :=
  Contested calls db schedule i ∨ ∃ early, early <+: schedule ∧ (run calls db early).IsUnderway i ∧
    (calls i).row? (run calls db early).database ≠ (calls i).row? later

theorem Contested.concat (h : Contested calls db schedule i) (j : ι) :
    Contested calls db (schedule ++ [j]) i := by
  obtain ⟨early, late, hearly, hlate, h⟩ := h
  exact ⟨early, late, hearly, hlate.trans (List.prefix_append _ _), h⟩

theorem FoundOutdated.concat (h : FoundOutdated calls db schedule i) (j : ι) :
    FoundOutdated calls db (schedule ++ [j]) i := by
  obtain ⟨pre, hpre, h⟩ := h
  exact ⟨pre, hpre.trans (List.prefix_append _ _), h⟩

theorem Excuse.concat {later : Database} (h : Excuse calls db schedule i later) (j : ι) :
    Excuse calls db (schedule ++ [j]) i later := by
  rcases h with h | ⟨early, hearly, h⟩
  · exact .inl (h.concat j)
  · exact .inr ⟨early, hearly.trans (List.prefix_append _ _), h⟩

/-- A row that differs from what it was is proof that it changed. -/
theorem Excuse.contested (h : Excuse calls db schedule i (run calls db schedule).database)
    (hunderway : (run calls db schedule).IsUnderway i) : Contested calls db schedule i := by
  rcases h with h | ⟨early, hearly, hearly', hrow⟩
  · exact h
  · exact ⟨early, schedule, hearly, List.prefix_rfl, hearly', hunderway, hrow⟩

/-- At any time what is left of a call can be, and it gives up only if its row has changed. -/
theorem isRest_run (schedule : List ι) (i : ι) (q : Program CallError Answer)
    (hq : (run calls db schedule).rest? i = some q) :
    (calls i).IsRest (Excuse calls db schedule i) q := by
  -- The turns of others leave the rest of a call alone, and an excuse stays one.
  induction schedule using List.reverseRecOn generalizing i q with
  | nil => simp at hq
  | append_singleton schedule j ih =>
      rw [run_concat] at hq
      by_cases hij : i = j
      · subst hij
        cases hreply : (run calls db schedule).reply? i with
        | some reply =>
            rw [turn_of_reply? hreply] at hq
            exact (ih i q hq).mono fun later h => h.concat i
        | none =>
            have hdone {reply : Except CallError Answer}
                (h : (turn calls (run calls db schedule) i).reply? i = some reply) :
                (calls i).IsRest (Excuse calls db (schedule ++ [i]) i) q := by
              rw [rest?_of_reply? h, Option.some.injEq] at hq
              rw [← hq]
              trivial
            rcases turn_cases hreply (ih i) with h | ⟨reply, h⟩ | ⟨reply, -, h⟩
            · refine (h.isRest q hq).mono fun later hlater => ?_
              obtain ⟨hunderway, hnow | hlater | hrow⟩ := hlater
              · exact .inl ((hnow.contested hunderway).concat i)
              · exact hlater.concat i
              · exact .inr ⟨schedule, List.prefix_append _ _, hunderway, hrow⟩
            · exact hdone h.reply?
            · exact hdone h.reply?
      · rw [rest?_turn_ne hij] at hq
        exact (ih i q hq).mono fun later h => h.concat j

/-- A call that was refused as stale has changed nothing, and there was a reason: either it carried
another version than the stored one, or the record changed while the call was under way. -/
structure RightlyRefused (calls : ι → Call) (db : Database) (schedule : List ι) (i : ι) : Prop where
  unchanged : ∀ pre, pre ++ [i] <+: schedule →
    (run calls db (pre ++ [i])).database = (run calls db pre).database
  cause : FoundOutdated calls db schedule i ∨ Contested calls db schedule i

theorem unchanged_of_stale (hreply : (run calls db schedule).reply? i = some reply)
    (hstale : Call.Stale reply) (pre : List ι) (hpre : pre ++ [i] <+: schedule) :
    (run calls db (pre ++ [i])).database = (run calls db pre).database := by
  rw [run_concat]
  cases hended : (run calls db pre).reply? i with
  | some early => rw [turn_of_reply? hended]
  | none =>
      rcases turn_cases hended (isRest_run pre i) with h | ⟨early, h⟩ | ⟨early, -, h⟩
      · exact h.database
      · -- A call that was served cannot have been refused in the end.
        have hearly := h.reply?
        rw [← run_concat] at hearly
        have hsame := reply?_of_earlier hpre hearly
        rw [hreply, Option.some.injEq] at hsame
        rw [hsame] at hstale
        exact absurd hstale h.not_stale
      · exact h.database

theorem cause_of_stale (hreply : (run calls db schedule).reply? i = some reply)
    (hstale : Call.Stale reply) :
    FoundOutdated calls db schedule i ∨ Contested calls db schedule i := by
  induction schedule using List.reverseRecOn with
  | nil => simp [reply?] at hreply
  | append_singleton schedule j ih =>
      cases hended : (run calls db schedule).reply? i with
      | some early =>
          rw [run_concat, reply?_turn hended j] at hreply
          rw [hreply] at hended
          exact (ih hended).imp (fun h => h.concat j) fun h => h.concat j
      | none =>
          rw [run_concat] at hreply
          by_cases hij : i = j
          · subst hij
            rcases turn_cases hended (isRest_run schedule i) with h | ⟨early, h⟩ | ⟨early, hunder, h⟩
            · rw [h.reply?] at hreply
              simp at hreply
            · rw [h.reply?, Option.some.injEq] at hreply
              rw [← hreply] at hstale
              exact absurd hstale h.not_stale
            · rcases h.cause with hexcuse | houtdated
              · exact .inr ((hexcuse.contested hunder).concat i)
              · exact .inl ⟨schedule, List.prefix_append _ _, hunder, houtdated⟩
          · rw [reply?_turn_ne hij, hended] at hreply
            simp at hreply

/-! ### One call after another -/

/-- Make calls one after another, each as a whole: the answers, and the content in the end. -/
def inTurn (calls : ι → Call) : List ι → Database → List (Except CallError Answer) × Database
  | [], db => ([], db)
  | i :: rest, db =>
      let o := (calls i).program.run.effect .free db
      let (replies, db) := inTurn calls rest o.database
      (o.result :: replies, db)

omit [DecidableEq ι] in
theorem inTurn_concat (order : List ι) (i : ι) (db : Database) :
    inTurn calls (order ++ [i]) db =
      let o := (calls i).program.run.effect .free (inTurn calls order db).2
      ((inTurn calls order db).1 ++ [o.result], o.database) := by
  induction order generalizing db with
  | nil => rfl
  | cons j rest ih => simp [inTurn, ih]

/-- One call had ended before the other one began. -/
def Precedes (calls : ι → Call) (db : Database) (schedule : List ι) (i j : ι) : Prop :=
  ∃ pre, pre <+: schedule ∧ ((run calls db pre).reply? i).isSome ∧ (run calls db pre).rest? j = none

/-- Calls made one after another in this order come to the same as in their interleaving. -/
structure Linearizes (calls : ι → Call) (db : Database) (schedule order : List ι) : Prop where
  nodup : order.Nodup
  /-- The order has the calls that have ended, but for those refused as stale. -/
  complete : ∀ i, i ∈ order ↔
    ∃ reply, (run calls db schedule).reply? i = some reply ∧ ¬ Call.Stale reply
  /-- A call that had ended before another one began comes before it. -/
  realTime : ∀ i ∈ order, ∀ j ∈ order, Precedes calls db schedule i j → [i, j].Sublist order
  answers : (inTurn calls order db).1.map some = order.map (run calls db schedule).reply?
  database : (inTurn calls order db).2 = (run calls db schedule).database

variable {order : List ι}

/-- Only what happened before the last turn can be known to have ended before something began. -/
theorem Precedes.of_concat (h : Precedes calls db (schedule ++ [i]) j k)
    (hk : ((run calls db (schedule ++ [i])).rest? k).isSome) : Precedes calls db schedule j k := by
  obtain ⟨pre, hpre, hended, hnew⟩ := h
  rcases List.prefix_concat_iff.mp hpre with rfl | hpre
  · simp [hnew] at hk
  · exact ⟨pre, hpre, hended, hnew⟩

theorem Precedes.ended (h : Precedes calls db schedule i j) :
    ((run calls db schedule).reply? i).isSome := by
  obtain ⟨pre, hpre, hended, -⟩ := h
  obtain ⟨reply, hreply⟩ := Option.isSome_iff_exists.mp hended
  rw [reply?_of_earlier hpre hreply]
  rfl

omit [DecidableEq ι] in
theorem isSome_rest?_of_reply? (h : p.reply? i = some reply) : (p.rest? i).isSome := by
  rw [rest?_of_reply? h]
  rfl

/-- What is in the order has begun. -/
theorem Linearizes.begun (h : Linearizes calls db schedule order) (hi : i ∈ order) :
    ((run calls db schedule).rest? i).isSome := by
  obtain ⟨reply, hreply, -⟩ := (h.complete i).mp hi
  exact isSome_rest?_of_reply? hreply

/-- A turn that serves nobody leaves the order as it is. -/
theorem Linearizes.skip (h : Linearizes calls db schedule order)
    (hdb : (run calls db (schedule ++ [i])).database = (run calls db schedule).database)
    (hreply : ∀ j reply, (run calls db (schedule ++ [i])).reply? j = some reply →
      ¬ Call.Stale reply → (run calls db schedule).reply? j = some reply) :
    Linearizes calls db (schedule ++ [i]) order := by
  have hstays : ∀ {j reply}, (run calls db schedule).reply? j = some reply →
      (run calls db (schedule ++ [i])).reply? j = some reply :=
    reply?_of_earlier (List.prefix_append _ _)
  refine ⟨h.nodup, fun j => ?_, fun j hj k hk hprecedes => ?_, ?_, h.database.trans hdb.symm⟩
  · rw [h.complete j]
    constructor
    · rintro ⟨reply, hj, hfresh⟩
      exact ⟨reply, hstays hj, hfresh⟩
    · rintro ⟨reply, hj, hfresh⟩
      exact ⟨reply, hreply j reply hj hfresh, hfresh⟩
  · refine h.realTime j hj k hk (hprecedes.of_concat ?_)
    exact isSome_rest?_of_earlier (List.prefix_append _ _) (h.begun hk)
  · rw [h.answers]
    refine List.map_congr_left fun j hj => ?_
    obtain ⟨reply, hj, -⟩ := (h.complete j).mp hj
    rw [hj, hstays hj]

/-- A call that ends now may come last: what has begun by now did not begin after its end. -/
theorem Linearizes.realTime_concat (h : Linearizes calls db schedule order)
    (hopen : (run calls db schedule).reply? i = none)
    (hreply : (run calls db (schedule ++ [i])).reply? i = some reply) :
    ∀ j ∈ order ++ [i], ∀ k ∈ order ++ [i], Precedes calls db (schedule ++ [i]) j k →
      [j, k].Sublist (order ++ [i]) := by
  intro j hj k hk hprecedes
  have hbegun : ((run calls db (schedule ++ [i])).rest? k).isSome := by
    rcases List.mem_append.mp hk with hk | hk
    · exact isSome_rest?_of_earlier (List.prefix_append _ _) (h.begun hk)
    · rw [List.mem_singleton.mp hk]
      exact isSome_rest?_of_reply? hreply
  have hearlier := hprecedes.of_concat hbegun
  -- The call that ends now had not ended before, so it is another one.
  have hj : j ∈ order := by
    rcases List.mem_append.mp hj with hj | hj
    · exact hj
    · have hended := hearlier.ended
      simp [List.mem_singleton.mp hj, hopen] at hended
  rcases List.mem_append.mp hk with hk | hk
  · exact (h.realTime j hj k hk hearlier).trans (List.sublist_append_left _ _)
  · rw [List.mem_singleton.mp hk]
    exact (List.singleton_sublist.mpr hj).append (List.Sublist.refl [i])

/-- A call that is served comes next. -/
theorem Linearizes.serve (h : Linearizes calls db schedule order)
    (hopen : (run calls db schedule).reply? i = none)
    (hserves : Serves calls (run calls db schedule) (run calls db (schedule ++ [i])) i reply) :
    Linearizes calls db (schedule ++ [i]) (order ++ [i]) := by
  have hstays : ∀ {j reply}, (run calls db schedule).reply? j = some reply →
      (run calls db (schedule ++ [i])).reply? j = some reply :=
    reply?_of_earlier (List.prefix_append _ _)
  have hnew : i ∉ order := by
    intro hi
    obtain ⟨early, hearly, -⟩ := (h.complete i).mp hi
    simp [hopen] at hearly
  have hnext : inTurn calls (order ++ [i]) db
      = ((inTurn calls order db).1 ++ [reply], (run calls db (schedule ++ [i])).database) := by
    rw [inTurn_concat, h.database, Call.effect_run_program, hserves.effect]
  refine ⟨?_, fun j => ?_, h.realTime_concat hopen hserves.reply?, ?_, by rw [hnext]⟩
  · refine List.nodup_append.mpr ⟨h.nodup, by simp, fun j hj k hk hjk => hnew ?_⟩
    rw [hjk, List.mem_singleton.mp hk] at hj
    exact hj
  · rw [List.mem_append, List.mem_singleton, h.complete j]
    constructor
    · rintro (⟨early, hj, hfresh⟩ | rfl)
      · exact ⟨early, hstays hj, hfresh⟩
      · exact ⟨reply, hserves.reply?, hserves.not_stale⟩
    · rintro ⟨late, hj, hfresh⟩
      by_cases hji : j = i
      · exact .inr hji
      · rw [run_concat, reply?_turn_ne hji] at hj
        exact .inl ⟨late, hj, hfresh⟩
  · rw [hnext, List.map_append, List.map_append, h.answers]
    refine congrArg₂ _ (List.map_congr_left fun j hj => ?_) (by simp [hserves.reply?])
    obtain ⟨early, hj, -⟩ := (h.complete j).mp hj
    rw [hj, hstays hj]

/-- A schedule has an order that it comes to the same as. -/
theorem exists_linearizes (calls : ι → Call) (db : Database) (schedule : List ι) :
    ∃ order, Linearizes calls db schedule order := by
  -- By induction on the last turn: the order grows when it serves a call, and only then.
  induction schedule using List.reverseRecOn with
  | nil =>
      refine ⟨[], by simp, fun i => ?_, by simp, rfl, rfl⟩
      simp [reply?]
  | append_singleton schedule i ih =>
      obtain ⟨order, h⟩ := ih
      have hothers {j : ι} {late : Except CallError Answer} (hji : j ≠ i)
          (hj : (run calls db (schedule ++ [i])).reply? j = some late) :
          (run calls db schedule).reply? j = some late := by
        rwa [run_concat, reply?_turn_ne hji] at hj
      cases hended : (run calls db schedule).reply? i with
      | some early =>
          have hsame : run calls db (schedule ++ [i]) = run calls db schedule := by
            rw [run_concat, turn_of_reply? hended]
          refine ⟨order, h.skip (by rw [hsame]) fun j late hj _ => ?_⟩
          rwa [hsame] at hj
      | none =>
          have hturn := turn_cases hended (isRest_run schedule i)
          rw [← run_concat] at hturn
          rcases hturn with hgo | ⟨reply, hserves⟩ | ⟨reply, -, hrefuses⟩
          · refine ⟨order, h.skip hgo.database fun j late hj _ => ?_⟩
            by_cases hji : j = i
            · rw [hji, hgo.reply?] at hj
              simp at hj
            · exact hothers hji hj
          · exact ⟨order ++ [i], h.serve hended hserves⟩
          · refine ⟨order, h.skip hrefuses.database fun j late hj hfresh => ?_⟩
            by_cases hji : j = i
            · rw [hji, hrefuses.reply?, Option.some.injEq] at hj
              rw [← hj] at hfresh
              exact absurd hrefuses.stale hfresh
            · exact hothers hji hj

/-- **Interleaved calls are linearizable.**  There is an order of the calls that have ended, save
those refused as stale, in which making them one after another gives the same answers and the same
content, and which keeps to the order in which calls ended and began.  The calls refused as stale
have changed nothing and were refused rightly. -/
theorem exists_linearization (calls : ι → Call) (db : Database) (schedule : List ι) :
    (∃ order, Linearizes calls db schedule order) ∧
      ∀ i reply, (run calls db schedule).reply? i = some reply → Call.Stale reply →
        RightlyRefused calls db schedule i :=
  ⟨exists_linearizes calls db schedule, fun _ _ hreply hstale =>
    ⟨unchanged_of_stale hreply hstale, cause_of_stale hreply hstale⟩⟩

end Play

end AccessStore
