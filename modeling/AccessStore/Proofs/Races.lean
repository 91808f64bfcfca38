/-
Races.

Calls race if only one of them can have its way.  While the race is open, what is left of
a racing call either has changed nothing yet, or wins with its next step; this is
`Contends`.  Once the race is over, what is left of the others changes nothing more, and
they are told that they have lost; this is `Loses`.  Both are asked of a program step by
step, since anybody may come in between two of its steps.

That there is one winner is then an invariant of schedules.  Either nobody has won and
all who have begun contend, or one has won and the rest of the others lose.  Calls that
have no part in the race may be made all the time, as long as they leave alone what the
race is about.  A race is decided when the calls that race have ended, and a call has
ended when it has had four turns.
-/
import AccessStore.Proofs.Interleaving

namespace AccessStore

/-- What a race is about: on which content it is open and on which it is over, and what the winner and
the losers are told. -/
structure Race where
  isOpen : Database → Prop
  isOver : Database → Prop
  won : Except CallError Answer
  lost : Except CallError Answer

namespace Race

variable {race : Race} {wins : Database → Prop} {db db' : Database} {β : Type}
  {action : Action CallError β} {next : β → Program CallError Answer}
  {p : Program CallError Answer} {result : Except CallError Answer}

/-! ### Losing -/

/-- If the race is over by every step of it, the program changes nothing and is told that it has
lost. -/
def Loses (race : Race) : Program CallError Answer → Prop
  | .done result => result = race.lost
  | .step action next => ∀ db, race.isOver db →
      (action.effect .free db).database = db ∧ match (action.effect .free db).result with
        | .ok b => race.Loses (next b)
        | .error e => .error e = race.lost

theorem Loses.step (h : race.Loses (.step action next)) (hover : race.isOver db) :
    (action.effect .free db).database = db ∧
      race.Loses (Program.rest (action.effect .free db) next) := by
  obtain ⟨hdb, hrest⟩ := h db hover
  refine ⟨hdb, ?_⟩
  unfold Program.rest
  split <;> simp_all [Loses]

/-- It loses if what is left after a step does. -/
theorem loses_step (h : ∀ db, race.isOver db → ∃ b, action.effect .free db = ⟨.ok b, db⟩ ∧
    race.Loses (next b)) : race.Loses (.step action next) := by
  intro db hover
  obtain ⟨b, hstep, hrest⟩ := h db hover
  rw [hstep]
  exact ⟨rfl, hrest⟩

/-! ### Contending -/

/-- While the race is open, a step of the program changes nothing, or it is the last one and wins;
and if the race is over by then, the program loses. -/
def Contends (race : Race) (wins : Database → Prop) : Program CallError Answer → Prop
  | .done _ => False
  | .step action next => race.Loses (.step action next) ∧ ∀ db, race.isOpen db →
      (∃ b, action.effect .free db = ⟨.ok b, db⟩ ∧ race.Contends wins (next b)) ∨
        (wins (action.effect .free db).database ∧
          Program.rest (action.effect .free db) next = .done race.won)

/-- Who contends will lose if somebody else wins. -/
theorem Contends.loses (h : race.Contends wins p) : race.Loses p := by
  cases p with
  | done result => exact h.elim
  | step action next => exact h.1

theorem Contends.mono {wins' : Database → Prop} (hw : ∀ db, wins db → wins' db)
    (h : race.Contends wins p) : race.Contends wins' p := by
  induction p with
  | done result => exact h
  | step action next ih =>
      refine ⟨h.1, ?_⟩
      intro db hopen
      rcases h.2 db hopen with ⟨b, hstep, hnext⟩ | ⟨hdb, hrest⟩
      · exact .inl ⟨b, hstep, ih b hnext⟩
      · exact .inr ⟨hw _ hdb, hrest⟩

/-! ### Programs of one step -/

/-- The only step of a program does all that the program does. -/
theorem rest_of_isBrief (hp : (Program.step action next).IsBrief)
    (h : (Program.step action next).effect .free db = ⟨result, db'⟩) :
    (action.effect .free db).database = db' ∧
      Program.rest (action.effect .free db) next = .done result := by
  have hdone : (Program.rest (action.effect .free db) next).IsDone := by
    unfold Program.rest
    split
    · exact hp _
    · trivial
  obtain ⟨result', hrest⟩ := Program.isDone_iff.mp hdone
  rw [Program.effect_step, hrest] at h
  obtain ⟨rfl, rfl⟩ := Outcome.mk.inj h
  exact ⟨rfl, hrest⟩

/-- A program of one step contends if it wins as a whole or loses as a whole.  It does have a step,
since who wins changes something. -/
theorem contends_of_isBrief (hp : p.IsBrief) (hsome : ∃ db, race.isOpen db)
    (hnew : ∀ db, race.isOpen db → ¬ wins db)
    (hwin : ∀ db, race.isOpen db → ∃ db', p.effect .free db = ⟨race.won, db'⟩ ∧ wins db')
    (hlose : ∀ db, race.isOver db → p.effect .free db = ⟨race.lost, db⟩) :
    race.Contends wins p := by
  cases p with
  | done result =>
      obtain ⟨db, hopen⟩ := hsome
      obtain ⟨db', heffect, hwins⟩ := hwin db hopen
      obtain rfl : db = db' := (Outcome.mk.inj heffect).2
      exact hnew db hopen hwins
  | step action next =>
      refine ⟨?_, ?_⟩
      · intro db hover
        obtain ⟨hdb, hrest⟩ := rest_of_isBrief hp (hlose db hover)
        refine ⟨hdb, ?_⟩
        unfold Program.rest at hrest
        split at hrest <;> simp_all [Loses]
      · intro db hopen
        obtain ⟨db', heffect, hwins⟩ := hwin db hopen
        obtain ⟨hdb, hrest⟩ := rest_of_isBrief hp heffect
        rw [← hdb] at hwins
        exact .inr ⟨hwins, hrest⟩

end Race

/-! ### Coming to an end -/

/-- The program has this many steps at most. -/
def Program.Within {ε α : Type} : Nat → Program ε α → Prop
  | _, .done _ => True
  | 0, .step _ _ => False
  | n + 1, .step _ next => ∀ b, Program.Within n (next b)

namespace Program

variable {ε α β : Type} {n : Nat}

@[simp] theorem within_done (result : Except ε α) (n : Nat) : (done result).Within n := by
  cases n <;> trivial

theorem within_of_isDone {p : Program ε α} (h : p.IsDone) (n : Nat) : p.Within n := by
  obtain ⟨result, rfl⟩ := isDone_iff.mp h
  exact within_done result n

theorem within_of_isBrief {p : Program ε α} (h : p.IsBrief) (n : Nat) : p.Within (n + 1) := by
  cases p with
  | done result => exact within_done result _
  | step action next => exact fun b => within_of_isDone (h b) n

theorem Within.rest {action : Action ε β} {next : β → Program ε α} {o : Outcome ε β}
    (h : (step action next).Within (n + 1)) : (Program.rest o next).Within n := by
  unfold Program.rest
  split
  · exact h _
  · exact within_done _ n

end Program

/-- A call has three steps at most: a removal may look, delete, and look once more. -/
theorem Call.within_program (c : Call) : c.program.Within 3 := by
  have hsingle (h : c.IsSingle) : c.program.Within 3 :=
    Program.within_of_isBrief (isBrief_program h) 2
  cases c with
  | update r plain =>
      cases hnamed : r.blankIdentity? with
      | some blank =>
          simp only [program, updateRecord, Records.identified, hnamed]
          exact Program.within_done _ 3
      | none =>
          rw [update_program hnamed]
          rintro (_ | row)
          · exact Program.within_done _ 2
          · dsimp only
            split
            · exact Program.within_done _ 2
            · refine Program.within_of_isBrief ?_ 1
              exact Program.isBrief_bind (Program.isBrief_mapError _ (isBrief_write _ _))
                fun _ => trivial
  | remove kind key plain =>
      rw [remove_program]
      rintro (_ | row)
      · exact Program.within_done _ 2
      · dsimp only
        rw [deleteAt_program]
        rintro (_ | _)
        · rintro (_ | row') <;> exact Program.within_done _ 0
        · exact Program.within_done _ 1
  | _ => exact hsingle trivial

namespace Play

variable {ι : Type} [DecidableEq ι]

/-- With its turns a call comes nearer to its end. -/
theorem within_run (calls : ι → Call) (db : Database) (schedule : List ι) (i : ι) :
    ((run calls db schedule).rest? i = none ∧ schedule.count i = 0) ∨
      ∃ q, (run calls db schedule).rest? i = some q ∧ q.Within (4 - schedule.count i) := by
  induction schedule using List.reverseRecOn with
  | nil => exact .inl ⟨rfl, rfl⟩
  | append_singleton schedule j ih =>
      rw [run_concat]
      by_cases hij : i = j
      · subst hij
        right
        have hcount : (schedule ++ [i]).count i = schedule.count i + 1 := by simp
        rw [hcount]
        rcases ih with ⟨hrest, hzero⟩ | ⟨q, hrest, hq⟩
        · refine ⟨(calls i).program, ?_, by rw [hzero]; exact (calls i).within_program⟩
          simp [Play.turn, hrest, leave]
        · cases q with
          | done result =>
              refine ⟨.done result, ?_, Program.within_done _ _⟩
              have hended : (run calls db schedule).reply? i = some result := by
                simp [Play.reply?, hrest]
              rw [turn_of_reply? hended, hrest]
          | step action next =>
              -- There is a step left, so the call has not had all its turns.
              obtain ⟨n, hn⟩ : ∃ n, 4 - schedule.count i = n + 1 := by
                cases hleft : 4 - schedule.count i with
                | zero => rw [hleft] at hq; exact hq.elim
                | succ n => exact ⟨n, rfl⟩
              rw [hn] at hq
              refine ⟨Program.rest (action.effect .free (run calls db schedule).database) next, ?_, ?_⟩
              · simp [Play.turn, hrest, leave]
              · rw [show 4 - (schedule.count i + 1) = n by omega]
                exact hq.rest
      · rw [rest?_turn_ne hij, List.count_append, List.count_singleton]
        simpa [Ne.symm hij] using ih

/-- **A call has ended with its fourth turn**, for it begins with the first one. -/
theorem isSome_reply?_of_turns (calls : ι → Call) (db : Database) {schedule : List ι} {i : ι}
    (hturns : 4 ≤ schedule.count i) : ((run calls db schedule).reply? i).isSome := by
  rcases within_run calls db schedule i with ⟨-, hzero⟩ | ⟨q, hrest, hq⟩
  · omega
  · rw [Nat.sub_eq_zero_of_le hturns] at hq
    cases q with
    | done result => simp [Play.reply?, hrest]
    | step action next => exact hq.elim

/-! ### Racing calls -/

variable {calls : ι → Call} {racer : ι → Prop} {race : Race} {wins : ι → Database → Prop}
  {p : Play ι} {db : Database} {schedule : List ι} {i j : ι}

/-- Some of the calls race, and the others leave alone what the race is about. -/
structure Racing (calls : ι → Call) (racer : ι → Prop) (race : Race) (wins : ι → Database → Prop) :
    Prop where
  contends : ∀ i, racer i → race.Contends (wins i) (calls i).program
  isOver_of_wins : ∀ i db, racer i → wins i db → race.isOver db
  /-- Other calls do not win the race. -/
  isOpen_of_other : ∀ j db, ¬ racer j → race.isOpen db →
    race.isOpen ((calls j).program.effect .free db).database
  /-- Other calls do not take away what was won. -/
  wins_of_other : ∀ i j db, racer i → ¬ racer j → wins i db →
    wins i ((calls j).program.effect .free db).database

/-- Nobody has won the race, and all racers that have begun contend. -/
structure Pending (racer : ι → Prop) (race : Race) (wins : ι → Database → Prop) (p : Play ι) :
    Prop where
  isOpen : race.isOpen p.database
  contends : ∀ i q, racer i → p.rest? i = some q → race.Contends (wins i) q

/-- One racer has won the race, and the others that have begun lose. -/
structure WonBy (racer : ι → Prop) (race : Race) (wins : ι → Database → Prop) (p : Play ι) (i : ι) :
    Prop where
  races : racer i
  reply? : p.reply? i = some race.won
  won : wins i p.database
  loses : ∀ j q, racer j → j ≠ i → p.rest? j = some q → race.Loses q

/-- A turn leaves the content as it is, or it does to it what the whole call does. -/
theorem database_turn (calls : ι → Call) (db : Database) (schedule : List ι) (i : ι) :
    (turn calls (run calls db schedule) i).database = (run calls db schedule).database ∨
      (turn calls (run calls db schedule) i).database
        = ((calls i).program.effect .free (run calls db schedule).database).database := by
  cases hended : (run calls db schedule).reply? i with
  | some reply =>
      left
      rw [turn_of_reply? hended]
  | none =>
      rcases turn_cases hended (isRest_run schedule i) with h | ⟨reply, h⟩ | ⟨reply, -, h⟩
      · exact .inl h.database
      · right
        rw [h.effect]
      · exact .inl h.database

theorem rest?_leave (p : Play ι) (i : ι) (db : Database) (q : Program CallError Answer) :
    (p.leave i db q).rest? i = some q := by
  simp [leave]

theorem rest?_leave_ne (p : Play ι) (db : Database) (q : Program CallError Answer) (h : j ≠ i) :
    (p.leave i db q).rest? j = p.rest? j := by
  simp [leave, h]

/-- **A racer's turn keeps the race pending or wins it.** -/
theorem Pending.turn (hr : Racing calls racer race wins) (hp : Pending racer race wins p)
    (hi : racer i) :
    Pending racer race wins (turn calls p i) ∨ WonBy racer race wins (turn calls p i) i := by
  have hpending {q : Program CallError Answer} (hq : race.Contends (wins i) q) :
      Pending racer race wins (p.leave i p.database q) := by
    refine ⟨hp.isOpen, ?_⟩
    intro j q' hj hq'
    by_cases hji : j = i
    · subst hji
      rw [rest?_leave, Option.some.injEq] at hq'
      rwa [← hq']
    · rw [rest?_leave_ne _ _ _ hji] at hq'
      exact hp.contends j q' hj hq'
  unfold Play.turn
  cases hrest : p.rest? i with
  | none => exact .inl (hpending (hr.contends i hi))
  | some q =>
      have hq := hp.contends i q hi hrest
      cases q with
      | done result => exact hq.elim
      | step action next =>
          rcases hq.2 p.database hp.isOpen with ⟨b, hstep, hnext⟩ | ⟨hdb, hend⟩
          · left
            simp only [hstep]
            exact hpending hnext
          · -- All the others have contended until now, so they lose.
            right
            simp only [hend]
            refine ⟨hi, by rw [leave_reply?], hdb, ?_⟩
            intro j q' hj hji hq'
            rw [rest?_leave_ne _ _ _ hji] at hq'
            exact (hp.contends j q' hj hq').loses

/-- A race that is won stays won, whoever comes too late. -/
theorem WonBy.turn (hr : Racing calls racer race wins) (hp : WonBy racer race wins p i)
    (hj : racer j) : WonBy racer race wins (turn calls p j) i := by
  by_cases hji : j = i
  · subst hji
    rwa [turn_of_reply? hp.reply?]
  have hlosing {q : Program CallError Answer} (hq : race.Loses q) :
      WonBy racer race wins (p.leave j p.database q) i := by
    refine ⟨hp.races, ?_, hp.won, ?_⟩
    · rw [Play.reply?, rest?_leave_ne _ _ _ (Ne.symm hji)]
      exact hp.reply?
    · intro k q' hk hki hq'
      by_cases hkj : k = j
      · subst hkj
        rw [rest?_leave, Option.some.injEq] at hq'
        rwa [← hq']
      · rw [rest?_leave_ne _ _ _ hkj] at hq'
        exact hp.loses k q' hk hki hq'
  unfold Play.turn
  cases hrest : p.rest? j with
  | none => exact hlosing (hr.contends j hj).loses
  | some q =>
      have hq := hp.loses j q hj hji hrest
      cases q with
      | done result => exact hp
      | step action next =>
          obtain ⟨hdb, hnext⟩ := hq.step (hr.isOver_of_wins i _ hp.races hp.won)
          simp only [hdb]
          exact hlosing hnext

/-- A turn of a call that does not race leaves what is left of those that do. -/
theorem rest?_turn_of_other (hj : ¬ racer j) (hi : racer i) :
    (turn calls p j).rest? i = p.rest? i := by
  refine rest?_turn_ne ?_
  intro hij
  rw [hij] at hi
  exact hj hi

theorem Pending.turn_of_other (hr : Racing calls racer race wins)
    (hp : Pending racer race wins (run calls db schedule)) (hj : ¬ racer j) :
    Pending racer race wins (Play.turn calls (run calls db schedule) j) := by
  constructor
  · rcases database_turn calls db schedule j with hdb | hdb <;> rw [hdb]
    · exact hp.isOpen
    · exact hr.isOpen_of_other j _ hj hp.isOpen
  · intro i q hi hq
    rw [rest?_turn_of_other hj hi] at hq
    exact hp.contends i q hi hq

theorem WonBy.turn_of_other (hr : Racing calls racer race wins)
    (hp : WonBy racer race wins (run calls db schedule) i) (hj : ¬ racer j) :
    WonBy racer race wins (Play.turn calls (run calls db schedule) j) i := by
  refine ⟨hp.races, ?_, ?_, ?_⟩
  · rw [Play.reply?, rest?_turn_of_other hj hp.races]
    exact hp.reply?
  · rcases database_turn calls db schedule j with hdb | hdb <;> rw [hdb]
    · exact hp.won
    · exact hr.wins_of_other i j _ hp.races hj hp.won
  · intro k q hk hki hq
    rw [rest?_turn_of_other hj hk] at hq
    exact hp.loses k q hk hki hq

/-- **At any time the race is pending or has been won.** -/
theorem pending_or_wonBy (hr : Racing calls racer race wins) (hopen : race.isOpen db)
    (schedule : List ι) :
    Pending racer race wins (run calls db schedule) ∨
      ∃ i, WonBy racer race wins (run calls db schedule) i := by
  induction schedule using List.reverseRecOn with
  | nil =>
      refine .inl ⟨hopen, ?_⟩
      intro i q _ hq
      simp at hq
  | append_singleton schedule j ih =>
      rw [run_concat]
      rcases ih with hp | ⟨i, hp⟩
      · by_cases hj : racer j
        · exact (hp.turn hr hj).imp_right fun h => ⟨j, h⟩
        · exact .inl (hp.turn_of_other hr hj)
      · by_cases hj : racer j
        · exact .inr ⟨i, hp.turn hr hj⟩
        · exact .inr ⟨i, hp.turn_of_other hr hj⟩

/-- One of the racers has won, and this is left; all the others have been told that they have lost. -/
def OneWinner (p : Play ι) (racer : ι → Prop) (won lost : Except CallError Answer)
    (left : ι → Prop) : Prop :=
  ∃ i, racer i ∧ p.reply? i = some won ∧ left i ∧
    ∀ j, racer j → j ≠ i → p.reply? j = some lost

omit [DecidableEq ι] in
theorem OneWinner.mono {won lost : Except CallError Answer} {left left' : ι → Prop}
    (h : p.OneWinner racer won lost left) (hleft : ∀ i, left i → left' i) :
    p.OneWinner racer won lost left' := by
  obtain ⟨i, hi, hreply, hi', hothers⟩ := h
  exact ⟨i, hi, hreply, hleft i hi', hothers⟩

/-- **When all have ended, one racer has won and the others have lost.** -/
theorem Racing.oneWinner (hr : Racing calls racer race wins) (hopen : race.isOpen db)
    (hsome : ∃ i, racer i)
    (hended : ∀ i, racer i → ((run calls db schedule).reply? i).isSome) :
    (run calls db schedule).OneWinner racer race.won race.lost fun i =>
      wins i (run calls db schedule).database := by
  rcases pending_or_wonBy hr hopen schedule with hp | ⟨i, hp⟩
  · -- Who contends has not ended.
    obtain ⟨i, hi⟩ := hsome
    obtain ⟨reply, hreply⟩ := Option.isSome_iff_exists.mp (hended i hi)
    exact (hp.contends i _ hi (rest?_of_reply? hreply)).elim
  · refine ⟨i, hp.races, hp.reply?, hp.won, ?_⟩
    intro j hj hji
    obtain ⟨reply, hreply⟩ := Option.isSome_iff_exists.mp (hended j hj)
    obtain rfl : reply = race.lost := hp.loses j _ hj hji (rest?_of_reply? hreply)
    exact hreply

end Play

end AccessStore
