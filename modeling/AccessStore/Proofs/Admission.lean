/-
When a store lets calls through.

A store is open from a start that succeeds until the next stop, whatever is asked of it in between and
however other starts end: `open_iff_startedSince`.  The step lemma is that only starts and stops move
the gate, `gate_respond`, and the induction is over the requests from the last one backwards.

A start is spoken of with any hook behind the gate, for the hook of a store goes by the defaults and the
database and can end in any way.

That a closed store says so and does nothing is one look at the call.  That an open one never says so is
a matter of all programs: `Action.Avoids` is kept by everything that programs are made of.
-/
import AccessStore.Proofs.Independence

namespace AccessStore

/-! ### Errors that are never given -/

namespace Action

variable {ε δ α β : Type} {e : ε}

/-- The action never ends in this error. -/
def Avoids (action : Action ε α) (e : ε) : Prop := ∀ s s', action s ≠ .error e s'

theorem avoids_pure (a : α) : (pure a : Action ε α).Avoids e := by
  intro s s' herror
  cases herror

theorem avoids_throw {e' : ε} (h : e' ≠ e) : (throw e' : Action ε α).Avoids e := by
  intro s s' herror
  exact h (EStateM.Result.error.inj herror).1

theorem avoids_ofExcept {result : Except ε α} (h : result ≠ .error e) : (ofExcept result).Avoids e := by
  cases result with
  | ok a => exact avoids_pure a
  | error e' => exact avoids_throw fun heq => h (congrArg _ heq)

theorem avoids_tell (event : Event) : (tell event : Action ε Unit).Avoids e := by
  intro s s' herror
  cases herror

theorem Avoids.bind {action : Action ε α} {next : α → Action ε β} (ha : action.Avoids e)
    (hn : ∀ a, (next a).Avoids e) : (action >>= next).Avoids e := by
  intro s s' herror
  change EStateM.bind action next s = _ at herror
  unfold EStateM.bind at herror
  split at herror
  · exact hn _ _ _ herror
  · rename_i e' s₁ haction
    obtain ⟨rfl, rfl⟩ := EStateM.Result.error.inj herror
    exact ha _ _ haction

/-- Where failures are told in other terms, only these terms matter. -/
theorem avoids_mapError {f : δ → ε} (h : ∀ d, f d ≠ e) (action : Action δ α) :
    (action.mapError f).Avoids e := by
  intro s s' herror
  unfold mapError at herror
  split at herror
  · cases herror
  · exact h _ (EStateM.Result.error.inj herror).1

theorem Avoids.tryCatch {body : Action ε α} {handle : ε → Action ε α} (hb : body.Avoids e)
    (hh : ∀ e', e' ≠ e → (handle e').Avoids e) : (tryCatch body handle).Avoids e := by
  intro s s' herror
  rw [tryCatch_apply] at herror
  split at herror
  · cases herror
  · rename_i e' s₁ hbody
    refine hh e' ?_ _ _ herror
    rintro rfl
    exact hb _ _ hbody

theorem Avoids.atomic {refused : StorageFault → ε} {body : Action ε α} (hb : body.Avoids e)
    (hr : ∀ fault, refused fault ≠ e) : (atomic refused body).Avoids e := by
  refine (avoids_mapError hr begin).bind fun _ => ?_
  refine (hb.tryCatch fun e' he => ?_).bind fun a => ?_
  · exact (avoids_mapError hr rollback).bind fun _ => avoids_throw he
  · exact (avoids_mapError hr commit).bind fun _ => avoids_pure a

end Action

namespace Program

variable {ε δ α β : Type} {e : ε}

/-- The program never ends in this error when it is run at a stretch. -/
def Avoids (p : Program ε α) (e : ε) : Prop := p.run.Avoids e

theorem avoids_pure (a : α) : (pure a : Program ε α).Avoids e := Action.avoids_pure a

theorem avoids_fail {e' : ε} (h : e' ≠ e) : (fail e' : Program ε α).Avoids e := Action.avoids_throw h

theorem avoids_ofExcept {result : Except ε α} (h : result ≠ .error e) : (ofExcept result).Avoids e :=
  Action.avoids_ofExcept h

theorem Avoids.bind {p : Program ε α} {f : α → Program ε β} (hp : p.Avoids e)
    (hf : ∀ a, (f a).Avoids e) : (p >>= f).Avoids e := by
  rw [Avoids, run_bind]
  exact Action.Avoids.bind hp hf

theorem avoids_mapError {f : δ → ε} (h : ∀ d, f d ≠ e) (p : Program δ α) :
    (p.mapError f).Avoids e := by
  rw [Avoids, run_mapError]
  exact Action.avoids_mapError h p.run

theorem avoids_once {action : Action ε α} (h : action.Avoids e) : (once action).Avoids e := by
  rwa [Avoids, run_once]

theorem Avoids.atomic {refused : StorageFault → ε} {p : Program ε α} (hp : p.Avoids e)
    (hr : ∀ fault, refused fault ≠ e) : (p.atomic refused).Avoids e :=
  avoids_once (Action.Avoids.atomic hp hr)

end Program

namespace CallError

theorem ofStore_ne_notStarted (e : StoreError) : ofStore e ≠ notStarted := by
  cases e <;> exact fun h => nomatch h

theorem ofStorage_ne_notStarted (fault : StorageFault) : ofStorage fault ≠ notStarted := nofun

end CallError

namespace Call

theorem avoids_records {α : Type} (p : Program StoreError α) : (records p).Avoids .notStarted :=
  Program.avoids_mapError CallError.ofStore_ne_notStarted p

theorem avoids_updateRecord (r : Record) : (updateRecord r).Avoids .notStarted := by
  have hidentified : (Records.identified r).mapError CallError.ofStore ≠ .error .notStarted := by
    rw [Records.identified]
    split <;> simp [Except.mapError, CallError.ofStore]
  refine (Program.avoids_ofExcept hidentified).bind fun _ => (avoids_records _).bind fun found => ?_
  split
  · exact Program.avoids_fail (by simp)
  · split
    · exact Program.avoids_fail (by simp)
    · exact avoids_records _

theorem avoids_putMapping (m : Mapping) : (putMapping m).Avoids .notStarted := by
  refine Action.Avoids.tryCatch ?_ fun e he => ?_
  · exact Action.Avoids.bind (avoids_updateRecord _) fun _ => Action.avoids_pure _
  · split
    · exact (Action.avoids_tell _).bind fun _ =>
        Action.Avoids.bind (avoids_records _) fun _ => Action.avoids_pure _
    · exact Action.avoids_throw he

/-- What is done behind the gate does not say that the gate is closed. -/
theorem avoids_program (c : Call) : c.program.Avoids .notStarted := by
  have hstorage := CallError.ofStorage_ne_notStarted
  cases c with
  | browse | get | add | remove => exact (avoids_records _).bind fun _ => Program.avoids_pure _
  | update r => exact (avoids_updateRecord r).bind fun _ => Program.avoids_pure _
  | addUser user roles =>
      have hbody : (addUserWith user roles).Avoids .notStarted :=
        (avoids_records _).bind fun _ => (avoids_records _).bind fun _ => Program.avoids_pure _
      exact (hbody.atomic hstorage).bind fun _ => Program.avoids_pure _
  | updateUser user roles =>
      have hbody : (updateUserWith user roles).Avoids .notStarted :=
        (avoids_updateRecord _).bind fun _ =>
          (Program.avoids_once (avoids_putMapping _)).bind fun _ => Program.avoids_pure _
      exact (hbody.atomic hstorage).bind fun _ => Program.avoids_pure _
  | removeUser id =>
      have hbody : (removeUserWith id).Avoids .notStarted := by
        refine (avoids_records _).bind fun removed => ?_
        split
        · exact (avoids_records _).bind fun _ => Program.avoids_pure _
        · exact Program.avoids_pure _
      exact (hbody.atomic hstorage).bind fun _ => Program.avoids_pure _

theorem avoids_countAll : countAll.Avoids .notStarted :=
  (avoids_records _).bind fun _ => (avoids_records _).bind fun _ => (avoids_records _).bind fun _ =>
    (avoids_records _).bind fun _ => Program.avoids_pure _

end Call

namespace Service

variable {h : Host}

/-! ### Starts, whatever their hook -/

/-- What a start does behind the closed gate.  It reports, it fails or it panics. -/
abbrev Hook := Host → Except (Stop CallError) (List KindReport) × Host

/-- A start with this hook. -/
def startWith (hook : Hook) : Task (Stop CallError) (Option (List KindReport)) := fun h =>
  let (result, gate, h) := h.service.gate.start hook h
  let h := { h with service := { h.service with gate } }
  match result with
  | .ok (some reports) => .ok (some reports) { h with journal := h.journal ++ [startSucceeded] }
  | .ok none => .ok none h
  | .error (.failed error) =>
      .error (.failed error) { h with journal := h.journal ++ [startFailed error] }
  | .error .panicked => .error .panicked h

/-- The hook of a store seeds its database. -/
theorem start_eq : start = startWith startHook := rfl

/-- What is told of a start by how its hook ended. -/
def toldOfStart : Except (Stop CallError) (List KindReport) → List Event
  | .ok _ => [startSucceeded]
  | .error (.failed error) => [startFailed error]
  | .error .panicked => []

/-- The host as the hook left it, with the gate that comes of the hook. -/
def settledBy (h : Host) (hook : Hook) : Host :=
  let (result, left) := hook h
  { left with
    service := { left.service with gate := h.service.gate.after result }
    journal := left.journal ++ toldOfStart result }

theorem startWith_of_open (hopen : h.service.gate = .started) (hook : Hook) :
    startWith hook h = .ok none h := by
  have hgate : h.service.gate.start hook h = (.ok none, h.service.gate, h) := by
    rw [Gate.start, hopen]
    rfl
  rw [startWith, hgate]

theorem startWith_of_closed (hclosed : h.service.gate ≠ .started) (hook : Hook) :
    startWith hook h = ended ((hook h).1.map some) (settledBy h hook) := by
  have hgate : h.service.gate.start hook h
      = ((hook h).1.map some, h.service.gate.after (hook h).1, (hook h).2) := by
    rw [Gate.start, if_neg (by simpa [Gate.isOpen] using hclosed)]
  rw [startWith, hgate, settledBy]
  rcases hook h with ⟨(stop | reports), left⟩
  · cases stop with
    | failed error => rfl
    | panicked => simp [Except.map, ended, toldOfStart]
  · rfl

/-! ### Stops, calls and counts -/

theorem stop_of_open {ε : Type} (hopen : h.service.gate = .started) :
    (stop h : EStateM.Result ε Host Bool) = .ok true
      { h with service := { h.service with gate := .stopped }, journal := h.journal ++ [stopped] } := by
  rw [stop, Gate.stop, hopen]
  rfl

theorem stop_of_closed {ε : Type} (hclosed : h.service.gate ≠ .started) :
    (stop h : EStateM.Result ε Host Bool) = .ok false h := by
  rw [stop, Gate.stop, if_neg (by simpa [Gate.isOpen] using hclosed)]
  rfl

theorem call_of_closed (hclosed : h.service.gate ≠ .started) (c : Call) :
    call c h = .error .notStarted (announced h c) := by
  rw [call_eq, if_neg (by simpa [Gate.isOpen] using hclosed)]

theorem counts_eq (h : Host) :
    counts h = if h.service.gate.isOpen then work CallError.ofStorage Call.countAll.run h
      else .error .notStarted h := by
  by_cases hopen : h.service.gate.isOpen <;> simp [counts, pass, bind, EStateM.bind, hopen]

theorem counts_of_closed (hclosed : h.service.gate ≠ .started) : counts h = .error .notStarted h := by
  rw [counts_eq, if_neg (by simpa [Gate.isOpen] using hclosed)]

/-- Work ends in no error that its action avoids and that no refusal of the storage becomes. -/
theorem work_avoids {ε α : Type} {refused : StorageFault → ε} {action : Action ε α} {e : ε}
    (hr : ∀ fault, refused fault ≠ e) (ha : action.Avoids e) (h' : Host) :
    work refused action h ≠ .error e h' := by
  intro herror
  unfold work at herror
  split at herror
  · exact hr _ (EStateM.Result.error.inj herror).1
  · split at herror
    · cases herror
    · rename_i haction
      rw [(EStateM.Result.error.inj herror).1] at haction
      exact ha _ _ haction

theorem call_of_open (hopen : h.service.gate = .started) (c : Call) (h' : Host) :
    call c h ≠ .error .notStarted h' := by
  rw [call_eq, if_pos (by simpa [Gate.isOpen] using hopen)]
  exact work_avoids CallError.ofStorage_ne_notStarted c.avoids_program h'

theorem counts_of_open (hopen : h.service.gate = .started) (h' : Host) :
    counts h ≠ .error .notStarted h' := by
  rw [counts_eq, if_pos (by simpa [Gate.isOpen] using hopen)]
  exact work_avoids CallError.ofStorage_ne_notStarted Call.avoids_countAll h'

/-! ### One request after another -/

/-- What is asked of a store, or done on its disk by somebody else. -/
inductive Request
  | start (hook : Hook)
  | stop
  | call (c : Call)
  | counts
  | elsewhere (change : Disk → Disk)

/-- What the store answers. -/
inductive Response
  | started (result : Except (Stop CallError) (Option (List KindReport)))
  | stopped (wasOpen : Bool)
  | answered (result : Except CallError Answer)
  | counted (result : Except CallError (PerKind Nat))
  | nothing

/-- How it ended. -/
def resultOf {ε σ α : Type} : EStateM.Result ε σ α → Except ε α
  | .ok a _ => .ok a
  | .error e _ => .error e

/-- Answer a request. -/
def respond (h : Host) : Request → Response × Host
  | .start hook => (.started (resultOf (startWith hook h)), leftBy (startWith hook h))
  | .stop =>
      match (stop h : EStateM.Result Empty Host Bool) with
      | .ok was h => (.stopped was, h)
  | .call c => (.answered (resultOf (call c h)), leftBy (call c h))
  | .counts => (.counted (resultOf (counts h)), leftBy (counts h))
  | .elsewhere change => (.nothing, { h with disk := change h.disk })

/-- Answer requests one after another.  What comes of it is the list of them with the answers, and what
is left. -/
def run (h : Host) (requests : List Request) : List (Request × Response) × Host :=
  requests.foldl (fun (log, h) r => (log ++ [(r, (respond h r).1)], (respond h r).2)) ([], h)

/-- A start has succeeded, and no stop has come since. -/
def StartedSince (log : List (Request × Response)) : Prop :=
  ∃ before hook reports later, log = before ++ (.start hook, .started (.ok (some reports))) :: later ∧
    ∀ entry ∈ later, entry.1 ≠ .stop

variable {r : Request} {log : List (Request × Response)}

theorem run_concat (h : Host) (requests : List Request) (r : Request) :
    run h (requests ++ [r]) = ((run h requests).1 ++ [(r, (respond (run h requests).2 r).1)],
      (respond (run h requests).2 r).2) := by
  rw [run, List.foldl_append]
  rfl

theorem startedSince_concat {response : Response} : StartedSince (log ++ [(r, response)]) ↔
    (∃ hook reports, r = .start hook ∧ response = .started (.ok (some reports))) ∨
      StartedSince log ∧ r ≠ .stop := by
  constructor
  · rintro ⟨before, hook, reports, later, hlog, hlater⟩
    rcases later.eq_nil_or_concat with rfl | ⟨later, last, rfl⟩
    · obtain ⟨-, hlast⟩ := List.append_inj' hlog rfl
      obtain ⟨rfl, rfl⟩ := Prod.mk.inj (List.singleton_inj.mp hlast)
      exact .inl ⟨hook, reports, rfl, rfl⟩
    · rw [List.concat_eq_append, ← List.cons_append, ← List.append_assoc] at hlog
      obtain ⟨hlog, hlast⟩ := List.append_inj' hlog rfl
      rw [← List.singleton_inj.mp hlast, List.concat_eq_append, List.forall_mem_append] at hlater
      exact .inr ⟨⟨before, hook, reports, later, hlog, hlater.1⟩, hlater.2 _ List.mem_cons_self⟩
  · rintro (⟨hook, reports, rfl, rfl⟩ | ⟨⟨before, hook, reports, later, rfl, hlater⟩, hstop⟩)
    · exact ⟨log, hook, reports, [], rfl, by simp⟩
    · refine ⟨before, hook, reports, later ++ [(r, response)], by simp, ?_⟩
      exact List.forall_mem_append.mpr ⟨hlater, by simpa using hstop⟩

theorem gate_settledBy (h : Host) (hook : Hook) :
    (settledBy h hook).service.gate = h.service.gate.after (hook h).1 := rfl

theorem gate_counts (h : Host) : (leftBy (counts h)).service.gate = h.service.gate := by
  rw [counts_eq]
  split
  · exact gate_work CallError.ofStorage Call.countAll.run h
  · rfl

/-- **Only starts and stops move the gate.** -/
theorem gate_respond (h : Host) (r : Request) : (respond h r).2.service.gate = .started ↔
    (∃ hook reports, r = .start hook ∧ (respond h r).1 = .started (.ok (some reports))) ∨
      h.service.gate = .started ∧ r ≠ .stop := by
  cases r with
  | start hook =>
      by_cases hopen : h.service.gate = .started
      · simp [respond, startWith_of_open hopen, resultOf, leftBy, hopen]
      · rw [respond, startWith_of_closed hopen, leftBy_ended, gate_settledBy]
        rcases (hook h).1 with (error | _) | reports
        · simp [Gate.after, ended, resultOf, Except.map, hopen]
        · simp [Gate.after, ended, resultOf, Except.map, hopen]
        · simp [Gate.after, ended, resultOf, Except.map]
  | stop =>
      by_cases hopen : h.service.gate = .started
      · simp [respond, stop_of_open hopen]
      · simp [respond, stop_of_closed hopen, hopen]
  | call c =>
      have hgate : (leftBy (call c h)).service.gate = h.service.gate := gate_after_call h c
      simp [respond, hgate]
  | counts => simp [respond, gate_counts]
  | elsewhere change => simp [respond]

theorem open_iff_startedSince (hclosed : h.service.gate ≠ .started) (requests : List Request) :
    (run h requests).2.service.gate = .started ↔ StartedSince (run h requests).1 := by
  induction requests using List.reverseRecOn with
  | nil =>
      constructor
      · intro hopen
        exact absurd hopen hclosed
      · rintro ⟨before, hook, reports, later, hlog, -⟩
        simp [run] at hlog
  | append_singleton requests r ih =>
      rw [run_concat, startedSince_concat, ← ih]
      exact gate_respond _ r

/-- What a store makes of the next request goes by its gate. -/
structure Admits (h : Host) : Prop where
  /-- An open store runs no hook, whichever it is, and a start of it changes nothing. -/
  startOpen (hopen : h.service.gate = .started) (hook : Hook) : startWith hook h = .ok none h
  /-- A closed store runs the hook.  A start answers what the hook gives and leaves what the hook leaves,
  apart from the gate and from the event of how it ended. -/
  startClosed (hclosed : h.service.gate ≠ .started) (hook : Hook) :
    startWith hook h = ended ((hook h).1.map some) (settledBy h hook)
  startsNothing (hook : Hook) : (∃ h', startWith hook h = .ok none h') ↔ h.service.gate = .started
  /-- A hook that fails leaves the gate failed, and one that panics leaves it as it was. -/
  hookFailed (hclosed : h.service.gate ≠ .started) (hook : Hook) (e : CallError)
    (hfailed : (hook h).1 = .error (.failed e)) : (leftBy (startWith hook h)).service.gate = .failed
  hookPanicked (hclosed : h.service.gate ≠ .started) (hook : Hook)
    (hpanicked : (hook h).1 = .error .panicked) :
    (leftBy (startWith hook h)).service.gate = h.service.gate
  stopOpen (hopen : h.service.gate = .started) : (stop h : EStateM.Result Empty Host Bool) = .ok true
    { h with service := { h.service with gate := .stopped }, journal := h.journal ++ [stopped] }
  stopClosed (hclosed : h.service.gate ≠ .started) :
    (stop h : EStateM.Result Empty Host Bool) = .ok false h
  /-- A closed store does no more about a call than to tell of it. -/
  callClosed (hclosed : h.service.gate ≠ .started) (c : Call) :
    call c h = .error .notStarted { h with journal := h.journal ++ [c.event] }
  callOpen (hopen : h.service.gate = .started) (c : Call) (h' : Host) : call c h ≠ .error .notStarted h'
  countsClosed (hclosed : h.service.gate ≠ .started) : counts h = .error .notStarted h
  countsOpen (hopen : h.service.gate = .started) (h' : Host) : counts h ≠ .error .notStarted h'

theorem admits (h : Host) : Admits h where
  startOpen := startWith_of_open
  startClosed := startWith_of_closed
  startsNothing hook := by
    constructor
    · rintro ⟨h', hnone⟩
      by_contra hclosed
      rw [startWith_of_closed hclosed, ended_eq_ok] at hnone
      cases hhook : (hook h).1 <;> simp [hhook, Except.map] at hnone
    · intro hopen
      exact ⟨h, startWith_of_open hopen hook⟩
  hookFailed hclosed hook e hfailed := by
    rw [startWith_of_closed hclosed, leftBy_ended, gate_settledBy, hfailed, Gate.after]
  hookPanicked hclosed hook hpanicked := by
    rw [startWith_of_closed hclosed, leftBy_ended, gate_settledBy, hpanicked, Gate.after]
  stopOpen := stop_of_open
  stopClosed := stop_of_closed
  callClosed := call_of_closed
  callOpen := call_of_open
  countsClosed := counts_of_closed
  countsOpen := counts_of_open

/-- **A store is open exactly from a start that succeeds until the next stop**, and whatever has been
asked of it before, it lets calls through exactly while it is open.  The start of a store is one of the
starts spoken of. -/
theorem gate_over_run (hclosed : h.service.gate ≠ .started) (requests : List Request) :
    start = startWith startHook ∧
      ((run h requests).2.service.gate = .started ↔ StartedSince (run h requests).1) ∧
      Admits (run h requests).2 :=
  ⟨start_eq, open_iff_startedSince hclosed requests, admits _⟩

/-- A store in memory that nothing has been asked of. -/
def unasked : Host where
  service := inMemory {}
  disk := { entries := .empty }

/-- A call, a start that panics, one that succeeds, and a count. -/
def fourRequests : List Request :=
  [.call (.get .role ["dev"]), .start fun h => (.error .panicked, h), .start fun h => (.ok [], h), .counts]

/-- The store is open after them. -/
theorem gate_over_four_requests : unasked.service.gate ≠ .started ∧
    (run unasked fourRequests).2.service.gate = .started ∧
    ∀ c h', call c (run unasked fourRequests).2 ≠ .error .notStarted h' := by
  have hclosed : unasked.service.gate ≠ .started := by decide
  obtain ⟨-, hopen, hadmits⟩ := gate_over_run hclosed fourRequests
  have hstarted : (run unasked fourRequests).2.service.gate = .started := by
    refine hopen.mpr ⟨[_, _], fun h => (.ok [], h), [], [(.counts, _)], rfl, ?_⟩
    simp
  exact ⟨hclosed, hstarted, hadmits.callOpen hstarted⟩

end Service

end AccessStore
