/-
What a store's database holds from one use to the next.

A store does nothing to its database but through connections, one for each call and one
for each start.  `content` says what the database holds between two uses, be it in the
memory of the service or in a file, and two facts make it the state of the store: a
connection sees this content (`database_of_connect`), and what the connection has
committed when it is given up is the content from then on (`content_release`).  So a call
or a start may be spoken of by the effect of its action on the content.

A database of its own that a connection is given by an address that names no file is
blank each time, which is why a content that is not blank is asked for.
-/
import AccessStore.Proofs.FailedCalls
import AccessStore.Proofs.SeedingOnce

namespace AccessStore

/-- How something ends that has this result and leaves this state. -/
def ended {ε σ α : Type} (result : Except ε α) (state : σ) : EStateM.Result ε σ α :=
  match result with
  | .ok a => .ok a state
  | .error e => .error e state

theorem ended_eq_ok {ε σ α : Type} {result : Except ε α} {state s : σ} {a : α} :
    ended result state = .ok a s ↔ result = .ok a ∧ state = s := by
  cases result <;> simp [ended]

/-! ### Keeping content in a file -/

namespace Disk

variable {disk disk' : Disk} {place : Place}

/-- How a connection to a file is made. -/
theorem connect_file {path : String} {a : Address}
    (h : disk.connect path = .ok (.file a place, disk')) :
    ∃ p opened, Address.ofText path = .ok a ∧ a.file? = some p ∧ disk.site? p = some place ∧
      disk.openFile a.mode place = .ok opened ∧ disk' = opened.adjust place (·.opened a) := by
  simp only [connect, bind, Except.bind, pure, Except.pure] at h
  cases ha : Address.ofText path with
  | error fault => simp [ha] at h
  | ok address =>
      simp only [ha] at h
      cases hp : address.file? with
      | none => simp [hp] at h
      | some p =>
          simp only [hp] at h
          cases hsite : disk.site? p with
          | none => simp [hsite, throw, throwThe, MonadExceptOf.throw] at h
          | some site =>
              simp only [hsite] at h
              split at h
              · cases h
              · cases hopen : disk.openFile address.mode site with
                | error fault => simp [hopen] at h
                | ok opened =>
                    simp only [hopen, Except.ok.injEq, Prod.mk.injEq, Link.file.injEq] at h
                    obtain ⟨⟨rfl, rfl⟩, rfl⟩ := h
                    exact ⟨p, opened, rfl, hp, hsite, hopen, rfl⟩

/-- No connection leads to the root, so the place it leads to can hold a file. -/
theorem place_ne_root {path : String} {address : Address}
    (h : disk.connect path = .ok (.file address place, disk')) : place ≠ [] := by
  obtain ⟨p, opened, -, -, hsite, -⟩ := connect_file h
  have hroot := (Option.filter_eq_some_iff.mp hsite).2
  simp only [decide_eq_true_eq] at hroot
  exact hroot.1

theorem contentAt_keep (hplace : place ≠ []) (content : Database) :
    (disk.keep place content).contentAt place = content := by
  unfold keep
  split
  · assumption
  · rw [contentAt, databaseAt, lookup_put, if_pos ⟨hplace, rfl⟩]
    rfl

/-- What a connection stores is there once it is given up. -/
theorem contentAt_stored (address : Address) (hplace : place ≠ []) (content : Database) :
    ((disk.store (.file address place) content).close (.file address place)).contentAt place
      = content := by
  rw [contentAt_close, store]
  split
  · rw [contentAt_tidy address (not_isBeside_self place)]
    exact contentAt_keep hplace content
  · exact contentAt_keep hplace content

end Disk

namespace Service

variable {ε α : Type} {h h' h₁ : Host} {link : Option Link} {w : Terms} {db : Database}

/-! ### Connections -/

/-- What the database holds to which a link of the host's service leads. -/
def content (h : Host) : Option Link → Database
  | none =>
      match h.service.backing with
      | .memory db => db
      | .file _ => .blank
  | some (.own _) => .blank
  | some (.file _ place) => h.disk.contentAt place

/-- The service can connect, on these terms, to a database that holds this. -/
def Connects (h : Host) (link : Option Link) (w : Terms) (db : Database) : Prop :=
  ∃ h₁, connect h = .ok (link, w.session db) h₁

/-- What a host has told does not matter to a connection. -/
theorem Connects.of_same (hc : Connects h link w db) (hservice : h'.service.backing = h.service.backing)
    (hdisk : h'.disk = h.disk) : Connects h' link w db := by
  obtain ⟨h₁, hc⟩ := hc
  unfold connect at hc
  unfold Connects connect
  rw [hservice, hdisk]
  split at hc
  · simp only [EStateM.Result.ok.injEq] at hc
    rw [hc.1]
    exact ⟨_, rfl⟩
  · cases hd : h.disk.connect _ with
    | error fault => simp [hd] at hc
    | ok linked =>
        simp only [hd, EStateM.Result.ok.injEq] at hc
        simp only [hc.1]
        exact ⟨_, rfl⟩

theorem content_of_same (hservice : h'.service.backing = h.service.backing) (hdisk : h'.disk = h.disk) :
    content h' link = content h link := by
  unfold content
  rw [hservice, hdisk]

/-- A store in memory can always connect, and nothing is in its way. -/
theorem connects_memory (hb : h.service.backing = .memory db) : Connects h none .free db := by
  refine ⟨h, ?_⟩
  rw [connect, hb]
  rfl

/-- Making a connection is nothing to the service. -/
theorem service_of_connect {session : Session} (hc : connect h = .ok (link, session) h₁) :
    h₁.service = h.service := by
  unfold connect at hc
  split at hc
  · simp only [EStateM.Result.ok.injEq] at hc
    rw [hc.2]
  · split at hc
    · simp only [EStateM.Result.ok.injEq] at hc
      rw [← hc.2]
    · simp at hc

/-- A connection sees the content. -/
theorem database_of_connect {session : Session} (hc : connect h = .ok (link, session) h₁) :
    session.database = content h link := by
  unfold connect at hc
  split at hc
  · rename_i db hb
    simp only [EStateM.Result.ok.injEq, Prod.mk.injEq] at hc
    rw [← hc.1.1, ← hc.1.2, content, hb]
  · split at hc
    · rename_i path hb link disk hd
      simp only [EStateM.Result.ok.injEq, Prod.mk.injEq] at hc
      rw [← hc.1.1, ← hc.1.2]
      cases link with
      | own readOnly => rfl
      | file address place =>
          rw [database_session, content]
          exact Disk.contentAt_connect hd place
    · simp at hc

theorem Connects.content_eq (hc : Connects h link w db) : content h link = db := by
  obtain ⟨h₁, hc⟩ := hc
  exact (database_of_connect hc).symm

/-- What a connection has committed is the content once it is given up.  A database of the connection's
own is blank again the next time, so it must not have become anything else. -/
theorem content_release_kept {session : Session} (hc : connect h = .ok (link, session) h₁)
    (s : Session) (hkept : session.database = .blank → s.database = .blank) (hdisk : h'.disk = h₁.disk) :
    content (release link s h') link = s.database := by
  unfold connect at hc
  split at hc
  · simp only [EStateM.Result.ok.injEq, Prod.mk.injEq] at hc
    rw [← hc.1.1]
    rfl
  · split at hc
    · rename_i path hb link disk hd
      simp only [EStateM.Result.ok.injEq, Prod.mk.injEq] at hc
      obtain ⟨⟨rfl, rfl⟩, rfl⟩ := hc
      cases link with
      | own readOnly => exact (hkept rfl).symm
      | file address place =>
          show ((h'.disk.store (.file address place) s.database).close (.file address place)).contentAt
            place = _
          exact Disk.contentAt_stored address (Disk.place_ne_root hd) s.database
    · simp at hc

theorem content_release {session : Session} (hc : connect h = .ok (link, session) h₁)
    (hblank : session.database ≠ .blank) (s : Session) (hdisk : h'.disk = h₁.disk) :
    content (release link s h') link = s.database :=
  content_release_kept hc s (fun heq => absurd heq hblank) hdisk

/-! ### Calls -/

/-- Work has the effect of its action on the content, if the action makes nothing of a blank one. -/
theorem work_of_connects_kept (refused : StorageFault → ε) (action : Action ε α)
    (hc : Connects h link w db) (hkept : db = .blank → (action.effect w db).database = .blank) :
    ∃ h', work refused action h = ended (action.effect w db).result h' ∧
      content h' link = (action.effect w db).database := by
  obtain ⟨h₁, hc⟩ := hc
  unfold work
  rw [hc]
  rcases ha : action (w.session db) with ⟨a, s⟩ | ⟨e, s⟩
  all_goals
    have hs : (action.effect w db).database = s.database := by simp [Action.effect, ha]
    have hcontent : content (release link s h₁) link = s.database :=
      content_release_kept hc s (fun hblank => hs ▸ hkept hblank) rfl
    refine ⟨release link s h₁, ?_, hcontent.trans hs.symm⟩
    simp [Action.effect, ha, ended]

/-- Work has the effect of its action on the content. -/
theorem work_of_connects (refused : StorageFault → ε) (action : Action ε α)
    (hc : Connects h link w db) (hblank : db ≠ .blank) :
    ∃ h', work refused action h = ended (action.effect w db).result h' ∧
      content h' link = (action.effect w db).database :=
  work_of_connects_kept refused action hc fun heq => absurd heq hblank

/-- The host once it has told of a call. -/
def announced (h : Host) (c : Call) : Host := { h with journal := h.journal ++ [c.event] }

theorem call_eq (c : Call) (h : Host) :
    call c h = if h.service.gate.isOpen then work CallError.ofStorage c.program.run (announced h c)
      else .error .notStarted (announced h c) := by
  have htold : (tell c.event : Task CallError Unit) h = .ok () (announced h c) := rfl
  by_cases hopen : h.service.gate.isOpen <;>
    simp [call, pass, bind, EStateM.bind, htold, hopen, announced]

/-- **A call has the effect of its program on the content**, if the gate is open. -/
theorem call_of_connects (c : Call) (hc : Connects h link w db) (hblank : db ≠ .blank)
    (hopen : h.service.gate.isOpen) :
    ∃ h', call c h = ended (c.program.effect w db).result h' ∧
      content h' link = (c.program.effect w db).database := by
  have htold : Connects (announced h c) link w db := hc.of_same rfl rfl
  rw [call_eq, if_pos hopen, ← Call.effect_run_program]
  exact work_of_connects _ _ htold hblank

/-- A closed gate lets nothing through. -/
theorem content_of_closed (c : Call) (hclosed : ¬ h.service.gate.isOpen) (link : Option Link) :
    ∃ h', call c h = .error .notStarted h' ∧ content h' link = content h link := by
  refine ⟨announced h c, ?_, content_of_same rfl rfl⟩
  rw [call_eq, if_neg hclosed]

end Service

end AccessStore
