/-
Records with blank identities.

A record with a blank identifying field is refused for that field before any row is looked at.  The
calls that add or update one record look at the field before they issue a statement, so they end there
whatever keeps the storage busy, `program_of_blank`.  The calls on users look at it a step later: they
open their transaction first, and where that is refused the caller is told of the storage and not of the
field.  `Service.blank_refused` says exactly when.  Nothing is changed in any case, for a call that fails
never changes anything.
-/
import AccessStore.Proofs.RecordUpdates

namespace AccessStore

/-! ### What is looked at first -/

namespace Call

variable {c : Call} {r : Record} {field : String} {w : Terms} {db : Database}

/-- The record that a call gives to be added or put in the place of another. -/
def given? : Call → Option Record
  | addUser user _ | updateUser user _ => some (.user user)
  | add r _ | update r _ => some r
  | _ => none

/-- The call is about a user and the user's mapping, which it changes in one transaction. -/
def isOnUser : Call → Bool
  | addUser _ _ | updateUser _ _ | removeUser _ => true
  | _ => false

theorem identified_of_firstBlank (h : r.FirstBlank field) :
    Records.identified r = .error (.invalid ⟨r.kind, field⟩) := by
  rw [Records.identified, Record.blankIdentity?_of_firstBlank h]

theorem add_of_firstBlank (h : r.FirstBlank field) :
    records (Records.add r) = .fail (.invalid ⟨r.kind, field⟩) := by
  rw [Records.add, identified_of_firstBlank h]
  rfl

theorem updateRecord_of_firstBlank (h : r.FirstBlank field) :
    updateRecord r = .fail (.invalid ⟨r.kind, field⟩) := by
  rw [updateRecord, identified_of_firstBlank h]
  rfl

/-- **A call with one blank record issues no statement.** -/
theorem program_of_blank (hgiven : c.given? = some r) (hone : c.isOnUser = false)
    (hblank : r.FirstBlank field) : c.program = .fail (.invalid ⟨r.kind, field⟩) := by
  cases c with
  | add r' plain =>
      obtain rfl : r' = r := Option.some.inj hgiven
      rw [program, add_of_firstBlank hblank]
      rfl
  | update r' plain =>
      obtain rfl : r' = r := Option.some.inj hgiven
      rw [program, updateRecord_of_firstBlank hblank]
      rfl
  | addUser user roles => cases hone
  | updateUser user roles => cases hone
  | browse kind => cases hgiven
  | get kind key => cases hgiven
  | removeUser id => cases hgiven
  | remove kind key plain => cases hgiven

/-- A call on a blank user is a transaction in which nothing is done. -/
theorem effect_of_blank_user (hgiven : c.given? = some r) (huser : c.isOnUser = true)
    (hblank : r.FirstBlank field) : c.program.effect w db = match w.barrier? with
      | some fault => ⟨.error (CallError.ofStorage fault), db⟩
      | none => ⟨.error (.invalid ⟨r.kind, field⟩), db⟩ := by
  have hatomic {p : Program CallError Version} (hp : p = .fail (.invalid ⟨r.kind, field⟩)) :
      (Program.atomic CallError.ofStorage p >>= fun v => pure (Answer.version v)).effect w db
        = match w.barrier? with
          | some fault => ⟨.error (CallError.ofStorage fault), db⟩
          | none => ⟨.error (.invalid ⟨r.kind, field⟩), db⟩ := by
    rw [hp, Program.effect_bind, Program.effect_atomic _ (Program.plain_fail _)]
    cases w.barrier? <;> rfl
  cases c with
  | addUser user roles =>
      obtain rfl : Record.user user = r := Option.some.inj hgiven
      refine hatomic ?_
      rw [addUserWith, add_of_firstBlank hblank]
      rfl
  | updateUser user roles =>
      obtain rfl : Record.user user = r := Option.some.inj hgiven
      refine hatomic ?_
      rw [updateUserWith, updateRecord_of_firstBlank hblank]
      rfl
  | add r' plain => cases huser
  | update r' plain => cases huser
  | browse kind => cases huser
  | get kind key => cases huser
  | removeUser id => cases hgiven
  | remove kind key plain => cases huser

/-- Why the storage is told of before a blank field: the call opens a transaction first, and cannot. -/
def hindrance? (c : Call) (w : Terms) : Option StorageFault :=
  if c.isOnUser then w.barrier? else none

theorem result_of_blank (hgiven : c.given? = some r) (hblank : r.FirstBlank field) :
    (c.program.effect w db).result = match c.hindrance? w with
      | some fault => .error (CallError.ofStorage fault)
      | none => .error (.invalid ⟨r.kind, field⟩) := by
  unfold hindrance?
  by_cases huser : c.isOnUser = true
  · rw [if_pos huser, effect_of_blank_user hgiven huser hblank]
    cases w.barrier? <;> rfl
  · rw [if_neg huser, program_of_blank hgiven (by simpa using huser) hblank]
    rfl

end Call

/-! ### What is told of the storage -/

namespace Service

variable {h h' : Host} {link : Option Link} {w : Terms} {db : Database} {c : Call} {r : Record}
  {field : String} {fault other : StorageFault}

/-- The service cannot connect, for this reason. -/
def CannotConnect (h : Host) (fault : StorageFault) : Prop := ∃ h₁, connect h = .error fault h₁

/-- What a host has told does not matter to a connection that cannot be made. -/
theorem CannotConnect.of_same (hc : CannotConnect h fault)
    (hservice : h'.service.backing = h.service.backing) (hdisk : h'.disk = h.disk) :
    CannotConnect h' fault := by
  obtain ⟨h₁, hc⟩ := hc
  unfold connect at hc
  unfold CannotConnect connect
  rw [hservice, hdisk]
  split at hc
  · cases hc
  · split at hc
    · cases hc
    · obtain rfl := (EStateM.Result.error.inj hc).1
      exact ⟨h', rfl⟩

/-- A service either connects on some terms or cannot connect. -/
theorem connects_or_cannotConnect (h : Host) :
    (∃ link w db, Connects h link w db) ∨ ∃ fault, CannotConnect h fault := by
  cases hc : connect h with
  | ok connection h₁ =>
      obtain ⟨link, session⟩ := connection
      obtain ⟨w, hw⟩ := session_of_connect hc
      exact .inl ⟨link, w, session.database, h₁, hw ▸ hc⟩
  | error fault h₁ => exact .inr ⟨fault, h₁, hc⟩

theorem Connects.not_cannotConnect (hc : Connects h link w db) : ¬ CannotConnect h fault := by
  rintro ⟨h₁, hno⟩
  obtain ⟨h₂, hyes⟩ := hc
  rw [hno] at hyes
  cases hyes

/-- The terms are those of the one connection that can be made now. -/
theorem Connects.terms_eq {link' : Option Link} {w' : Terms} {db' : Database} (hc : Connects h link w db)
    (hc' : Connects h link' w' db') : w' = w := by
  obtain ⟨h₁, hc⟩ := hc
  obtain ⟨h₂, hc'⟩ := hc'
  rw [hc] at hc'
  have hsession : w.session db = w'.session db' := (Prod.mk.inj (EStateM.Result.ok.inj hc').1).2
  have hbar : w.bar = w'.bar := congrArg Session.bar hsession
  have hobstacle : w.obstacle = w'.obstacle := congrArg Session.obstacle hsession
  cases w
  cases w'
  congr 1
  · exact hbar.symm
  · exact hobstacle.symm

/-- The storage is told of before anything that the call was given: there is no connection to it, or the
call is one on a user and its transaction cannot be opened. -/
def ToldFirst (h : Host) (c : Call) (fault : StorageFault) : Prop :=
  CannotConnect h fault ∨
    c.isOnUser = true ∧ ∃ link w db, Connects h link w db ∧ w.barrier? = some fault

theorem toldFirst_iff_of_connects (hc : Connects h link w db) :
    ToldFirst h c fault ↔ c.isOnUser = true ∧ w.barrier? = some fault := by
  constructor
  · rintro (hno | ⟨huser, link', w', db', hc', hbarrier⟩)
    · exact absurd hno hc.not_cannotConnect
    · rw [hc.terms_eq hc'] at hbarrier
      exact ⟨huser, hbarrier⟩
  · rintro ⟨huser, hbarrier⟩
    exact .inr ⟨huser, link, w, db, hc, hbarrier⟩

theorem toldFirst_iff_of_cannotConnect (hno : CannotConnect h fault) :
    ToldFirst h c other ↔ other = fault := by
  constructor
  · rintro (⟨h₁, hother⟩ | ⟨-, link, w, db, hc, -⟩)
    · obtain ⟨h₂, hno⟩ := hno
      rw [hno] at hother
      exact (EStateM.Result.error.inj hother).1.symm
    · exact absurd hno hc.not_cannotConnect
  · rintro rfl
    exact .inl hno

/-- Without a connection no call comes to anything. -/
theorem call_of_cannotConnect (hopen : h.service.gate.isOpen) (hno : CannotConnect h fault) :
    ∃ h', call c h = .error (CallError.ofStorage fault) h' := by
  obtain ⟨h₁, hc⟩ : CannotConnect (announced h c) fault := hno.of_same rfl rfl
  rw [call_eq, if_pos hopen, work, hc]
  exact ⟨h₁, rfl⟩

/-- A call with a blank record tells what there is to tell of the storage, or else the blank field. -/
theorem call_of_blank (hopen : h.service.gate.isOpen) (hgiven : c.given? = some r)
    (hblank : r.FirstBlank field) :
    (∃ fault h', call c h = .error (CallError.ofStorage fault) h' ∧
      ∀ other, ToldFirst h c other ↔ other = fault) ∨
    ∃ h', call c h = .error (.invalid ⟨r.kind, field⟩) h' ∧ ∀ other, ¬ ToldFirst h c other := by
  rcases connects_or_cannotConnect h with ⟨link, w, db, hc⟩ | ⟨fault, hno⟩
  · obtain ⟨h', hcall, -⟩ := call_effect c hc hopen
    rw [Call.result_of_blank hgiven hblank] at hcall
    simp only [toldFirst_iff_of_connects hc]
    cases huser : c.isOnUser with
    | false =>
        refine .inr ⟨h', ?_, fun other hother => Bool.false_ne_true hother.1⟩
        simpa [Call.hindrance?, huser, ended] using hcall
    | true =>
        cases hbarrier : w.barrier? with
        | none =>
            refine .inr ⟨h', ?_, fun other hother => Option.some_ne_none other hother.2.symm⟩
            simpa [Call.hindrance?, huser, hbarrier, ended] using hcall
        | some fault =>
            refine .inl ⟨fault, h', ?_, fun other => ?_⟩
            · simpa [Call.hindrance?, huser, hbarrier, ended] using hcall
            · simp [eq_comm]
  · obtain ⟨h', hcall⟩ := call_of_cannotConnect (c := c) hopen hno
    exact .inl ⟨fault, h', hcall, fun other => toldFirst_iff_of_cannotConnect hno⟩

/-! ### The result -/

/-- **A record with a blank identity is refused, and nothing is changed.**  A call on a role, a privilege
or a mapping has come to its end before it issues a statement.  A started store tells the first blank
field, unless it cannot connect or cannot open the transaction of a call on a user; then that is what it
tells.  So a lock that somebody else holds is told of before a user's blank field, and before no other. -/
theorem blank_refused (hopen : h.service.gate.isOpen) (hgiven : c.given? = some r)
    (hblank : r.FirstBlank field) :
    (c.isOnUser = false → c.program = .fail (.invalid ⟨r.kind, field⟩)) ∧
    ∃ e h', call c h = .error e h' ∧ Untouched h h' ∧
      (e = .invalid ⟨r.kind, field⟩ ↔ ∀ fault, ¬ ToldFirst h c fault) ∧
      ∀ fault, e = CallError.ofStorage fault ↔ ToldFirst h c fault := by
  refine ⟨fun hone => Call.program_of_blank hgiven hone hblank, ?_⟩
  rcases call_of_blank hopen hgiven hblank with ⟨fault, h', hcall, htold⟩ | ⟨h', hcall, htold⟩
  · refine ⟨_, h', hcall, untouched_of_call hcall, ?_, fun other => ?_⟩
    · exact iff_of_false (by simp [CallError.ofStorage]) fun hnone => hnone fault ((htold fault).mpr rfl)
    · rw [htold other]
      simp [CallError.ofStorage, eq_comm]
  · refine ⟨_, h', hcall, untouched_of_call hcall, iff_of_true rfl htold, fun other => ?_⟩
    exact iff_of_false (by simp [CallError.ofStorage]) (htold other)

/-- A started store in a file whose lock for writing somebody else holds. -/
def withLock : Host where
  service := { backing := .file "a.db", defaults := {}, gate := .started }
  disk := Disk.put { entries := .empty } [Text.octets "a.db"]
    (.database { content := .migrated, logged := true, locked := true })

/-- A record that is named by a space. -/
theorem firstBlank_of_space {rest : List (String × String)} (h : r.identity = (field, " ") :: rest) :
    r.FirstBlank field :=
  ⟨[], " ", rest, h, by decide, by simp⟩

theorem connects_withLock : Connects withLock (some (.file { path := Path.ofText "a.db" }
    [Text.octets "a.db"])) ⟨none, some .lock⟩ .migrated :=
  ⟨_, rfl⟩

/-- A blank role is refused for its name whoever holds the lock, and a blank user for the lock. -/
theorem blank_refused_under_lock :
    (∃ h', call (.add (.role { id := " " }) (by decide)) withLock
        = .error (.invalid ⟨.role, "id"⟩) h' ∧ Untouched withLock h') ∧
    ∃ h', call (.addUser { id := " " } .empty) withLock = .error (CallError.ofStorage .busy) h' ∧
      Untouched withLock h' := by
  refine ⟨?_, ?_⟩
  · obtain ⟨-, e, h', hcall, huntouched, hfield, -⟩ :=
      blank_refused (c := .add (.role { id := " " }) (by decide)) (h := withLock) rfl rfl
        (firstBlank_of_space rfl)
    obtain rfl := hfield.mpr fun fault htold =>
      nomatch ((toldFirst_iff_of_connects connects_withLock).mp htold).1
    exact ⟨h', hcall, huntouched⟩
  · obtain ⟨-, e, h', hcall, huntouched, -, hstorage⟩ :=
      blank_refused (c := .addUser { id := " " } .empty) (h := withLock) rfl rfl
        (firstBlank_of_space rfl)
    obtain rfl := (hstorage .busy).mpr ((toldFirst_iff_of_connects connects_withLock).mpr ⟨rfl, rfl⟩)
    exact ⟨h', hcall, huntouched⟩

/-- **A user's blank field is not always told first.** -/
theorem blank_user_under_lock : ¬ ∀ h c r field, h.service.gate.isOpen → c.given? = some r →
    r.FirstBlank field → (∃ link w db, Connects h link w db) →
      ∃ h', call c h = .error (.invalid ⟨r.kind, field⟩) h' := by
  intro hfirst
  obtain ⟨h', hcall⟩ := hfirst withLock (.addUser { id := " " } .empty) (.user { id := " " }) "id" rfl rfl
    (firstBlank_of_space rfl) ⟨_, _, _, connects_withLock⟩
  cases hcall

end Service

end AccessStore
