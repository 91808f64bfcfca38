/-
Calls that fail.

A call that fails leaves no trace in the database, whatever it failed with and whatever
the rows hold.  For a store in memory this is what `Call.harmless_program` says.  A
store in a file works through a connection, and making one and giving it up does leave
traces: the file may be made, it may be kept open, and the log and its memory beside it
come and go.  So the rest of the file shows that none of this is content.  Only the
files that the log and the memory occupy could hold a database of somebody else, which
is why they are excepted in `Untouched`.
-/
import AccessStore.Proofs.Calls
import AccessStore.Service

namespace AccessStore

namespace Disk

variable {disk disk' : Disk} {place p : Place}

/-! ### The content of files -/

/-- The content of the database at a place. -/
def contentAt (disk : Disk) (place : Place) : Database := (disk.databaseAt place).content

/-- The place is taken by the log of the database at another place, or by its memory. -/
def IsBeside (place p : Place) : Prop :=
  p = beside place logEnding ∨ p = beside place memoryEnding

/-- No file lies beside itself. -/
theorem beside_ne (place : Place) {ending : EntryName} (h : ending ≠ []) : beside place ending ≠ place := by
  intro heq
  rcases List.eq_nil_or_concat place with rfl | ⟨dir, name, rfl⟩
  · simp [beside] at heq
  · simp [beside, h] at heq

theorem not_isBeside_self (place : Place) : ¬ IsBeside place place := by
  rintro (h | h)
  · exact beside_ne place (by decide) h.symm
  · exact beside_ne place (by decide) h.symm

theorem lookup_put (disk : Disk) (place p : Place) (entry : Entry) :
    Disk.entry? (disk.put place entry) p
      = if p ≠ [] ∧ p = place then some entry else disk.entry? p := by
  by_cases hroot : p = []
  · simp [ entry?, hroot]
  · simp [ entry?, put, hroot, SortedMap.get?_insert]

theorem contentAt_eq (h : disk'.entry? p = disk.entry? p) : disk'.contentAt p = disk.contentAt p := by
  rw [contentAt, databaseAt, h]
  rfl

/-- Putting an entry of the same content changes none. -/
theorem contentAt_put {entry : Entry}
    (h : ((Link.held? entry).getD { content := .blank }).content = disk.contentAt place) (p : Place) :
    (disk.put place entry).contentAt p = disk.contentAt p := by
  rw [contentAt, databaseAt, lookup_put]
  by_cases hp : p ≠ [] ∧ p = place
  · rw [if_pos hp, hp.2]
    exact h
  · rw [if_neg hp]
    rfl

theorem contentAt_put_ne (entry : Entry) (hp : p ≠ place) :
    (disk.put place entry).contentAt p = disk.contentAt p := by
  refine contentAt_eq ?_
  rw [lookup_put, if_neg fun h => hp h.2]

theorem contentAt_putFile_ne (entry : Entry) (hp : p ≠ place) :
    (disk.putFile place entry).contentAt p = disk.contentAt p := by
  unfold putFile
  split
  · rfl
  · exact contentAt_put_ne entry hp

theorem contentAt_removeFile_ne (hp : p ≠ place) :
    (disk.removeFile place).contentAt p = disk.contentAt p := by
  unfold removeFile
  split
  · rfl
  · refine contentAt_eq ?_
    simp [ entry?, SortedMap.get?_erase_ne _ hp]

/-! ### What connections leave behind -/

theorem contentAt_adjust {f : DatabaseFile → DatabaseFile}
    (hf : ∀ file, (f file).content = file.content) (disk : Disk) (place p : Place) :
    (disk.adjust place f).contentAt p = disk.contentAt p := by
  unfold adjust
  split
  · rename_i file hfile
    refine contentAt_put ?_ p
    simp [contentAt, databaseAt, hfile, Link.held?, hf]
  · rfl

theorem contentAt_openFile {mode : Mode} (h : disk.openFile mode place = .ok disk') (p : Place) :
    disk'.contentAt p = disk.contentAt p := by
  unfold openFile at h
  split at h
  · split at h
    · -- The file that is made is as good as a blank database.
      rename_i hnone
      rw [← Except.ok.inj h]
      refine contentAt_put ?_ p
      simp [contentAt, databaseAt, hnone, Link.held?, Link.isUnwritten]
    · simp at h
    · simp at h
    · simp at h
    · rw [← Except.ok.inj h]
  · simp at h

theorem contentAt_layOut (hp : ¬ IsBeside place p) (memory : Bool) :
    (disk.layOut place memory).contentAt p = disk.contentAt p := by
  have hlog : p ≠ beside place logEnding := fun h => hp (.inl h)
  have hmemory : p ≠ beside place memoryEnding := fun h => hp (.inr h)
  cases memory with
  | true => exact (contentAt_putFile_ne _ hmemory).trans (contentAt_putFile_ne _ hlog)
  | false => exact contentAt_putFile_ne _ hlog

theorem contentAt_clearAway (hp : ¬ IsBeside place p) (memory : Bool) :
    (disk.clearAway place memory).contentAt p = disk.contentAt p := by
  have hlog : p ≠ beside place logEnding := fun h => hp (.inl h)
  have hmemory : p ≠ beside place memoryEnding := fun h => hp (.inr h)
  cases memory with
  | true => exact (contentAt_removeFile_ne hmemory).trans (contentAt_removeFile_ne hlog)
  | false => exact contentAt_removeFile_ne hlog

theorem contentAt_tidy (a : Address) (hp : ¬ IsBeside place p) :
    (a.tidy disk place).contentAt p = disk.contentAt p := by
  unfold Address.tidy
  split
  · rfl
  · split
    · exact contentAt_layOut hp _
    · exact contentAt_clearAway hp _

/-- Making a connection changes no content. -/
theorem contentAt_connect {path : String} {link : Link} (h : disk.connect path = .ok (link, disk'))
    (p : Place) : disk'.contentAt p = disk.contentAt p := by
  simp only [connect, bind, Except.bind, pure, Except.pure] at h
  split at h
  · simp at h
  · split at h
    · simp only [Except.ok.injEq, Prod.mk.injEq] at h
      rw [h.2]
    · split at h
      · simp [throw, throwThe, MonadExceptOf.throw] at h
      · split at h
        · simp at h
        · split at h
          · simp at h
          · rename_i hopen
            simp only [Except.ok.injEq, Prod.mk.injEq] at h
            rw [← h.2]
            refine (contentAt_adjust (fun file => ?_) _ _ p).trans (contentAt_openFile hopen p)
            rfl

/-- Giving up a connection changes no content. -/
theorem contentAt_close (disk : Disk) (link : Link) (p : Place) :
    (disk.close link).contentAt p = disk.contentAt p := by
  cases link with
  | own readOnly => rfl
  | file address place =>
      refine contentAt_adjust (fun file => ?_) disk place p
      unfold DatabaseFile.closed
      split <;> rfl

/-- Storing the content that was there, and giving up the connection, changes no content but
perhaps what lies beside. -/
theorem contentAt_store_close (address : Address) (hp : ¬ IsBeside place p) :
    ((disk.store (.file address place) (disk.contentAt place)).close (.file address place)).contentAt p
      = disk.contentAt p := by
  have hkeep : disk.keep place (disk.contentAt place) = disk := if_pos rfl
  rw [contentAt_close, store, hkeep]
  split
  · exact contentAt_tidy address hp
  · rfl

end Disk

/-! ### Calls -/

namespace Service

variable {ε α : Type} {h h' : Host} {e : ε}

/-- The place of the file that a connection of the service leads to. -/
def place? (h : Host) : Option Place :=
  match h.service.backing with
  | .memory _ => none
  | .file path =>
      match h.disk.connect path with
      | .ok (.file _ place, _) => some place
      | _ => none

/-- The service is the same, with what it keeps in memory, and so is the content of every file. -/
structure Untouched (h h' : Host) : Prop where
  service : h'.service = h.service
  /-- The files beside the service's own may come and go. -/
  content : ∀ p, (∀ place, place? h = some place → ¬ Disk.IsBeside place p) →
    h'.disk.contentAt p = h.disk.contentAt p

/-- The service's own file is not one of those beside it. -/
theorem Untouched.content_place (hu : Untouched h h') {place : Place} (hplace : place? h = some place) :
    h'.disk.contentAt place = h.disk.contentAt place := by
  refine hu.content place fun other hother => ?_
  rw [hplace] at hother
  rw [← Option.some.inj hother]
  exact Disk.not_isBeside_self place

theorem unchanged_of_connect_error {fault : StorageFault} {h₁ : Host}
    (hc : connect h = .error fault h₁) : h₁ = h := by
  unfold connect at hc
  split at hc
  · simp at hc
  · split at hc
    · simp at hc
    · simp only [EStateM.Result.error.injEq] at hc
      exact hc.2.symm

/-- A connection to a file sees its content. -/
theorem database_session (disk : Disk) (address : Address) (place : Place) :
    ((Link.file address place).session disk).database = disk.contentAt place := by
  show ((Link.held? ((disk.entry? place).getD (.text ""))).getD { content := .blank }).content = _
  unfold Disk.contentAt Disk.databaseAt
  cases disk.entry? place <;> rfl

/-- A connection starts outside of any transaction. -/
theorem session_of_connect {link : Option Link} {session : Session} {h₁ : Host}
    (hc : connect h = .ok (link, session) h₁) : ∃ w : Terms, session = w.session session.database := by
  unfold connect at hc
  split at hc
  · simp only [EStateM.Result.ok.injEq, Prod.mk.injEq] at hc
    rw [← hc.1.2]
    exact ⟨Terms.free, rfl⟩
  · split at hc
    · simp only [EStateM.Result.ok.injEq, Prod.mk.injEq] at hc
      rw [← hc.1.2]
      rename_i link disk _
      cases link with
      | own readOnly => exact ⟨⟨none, if readOnly then some .readOnly else none⟩, rfl⟩
      | file address place => exact ⟨⟨_, _⟩, rfl⟩
    · simp at hc

/-- A connection that committed nothing leaves nothing behind. -/
theorem untouched_release {link : Option Link} {session s : Session} {h₁ : Host}
    (hc : connect h = .ok (link, session) h₁) (hs : s.database = session.database) :
    Untouched h (release link s h₁) := by
  cases hb : h.service.backing with
  | memory db =>
      simp only [connect, hb, EStateM.Result.ok.injEq, Prod.mk.injEq] at hc
      obtain ⟨⟨rfl, rfl⟩, rfl⟩ := hc
      refine ⟨?_, fun p _ => rfl⟩
      show { h.service with backing := .memory s.database } = h.service
      rw [hs, ← hb]
  | file path =>
      cases hd : h.disk.connect path with
      | error fault => simp [connect, hb, hd] at hc
      | ok linked =>
          obtain ⟨link, disk⟩ := linked
          simp only [connect, hb, hd, EStateM.Result.ok.injEq, Prod.mk.injEq] at hc
          obtain ⟨⟨rfl, rfl⟩, rfl⟩ := hc
          refine ⟨rfl, fun p hp => ?_⟩
          show ((disk.store link s.database).close link).contentAt p = h.disk.contentAt p
          rw [← Disk.contentAt_connect hd p, hs]
          cases link with
          | own readOnly => rfl
          | file address place =>
              rw [database_session]
              exact Disk.contentAt_store_close address (hp place (by simp [place?, hb, hd]))

/-- Work that fails leaves nothing behind if the action does not. -/
theorem untouched_work {refused : StorageFault → ε} {action : Action ε α}
    (ha : ∀ w db, (action.effect w db).Harmless db)
    (hwork : work refused action h = .error e h') : Untouched h h' := by
  unfold work at hwork
  split at hwork
  · rename_i fault h₁ hc
    simp only [EStateM.Result.error.injEq] at hwork
    rw [← hwork.2, unchanged_of_connect_error hc]
    exact ⟨rfl, fun p _ => rfl⟩
  · rename_i link session h₁ hc
    obtain ⟨w, hw⟩ := session_of_connect hc
    split at hwork
    · simp at hwork
    · rename_i e' s hs
      simp only [EStateM.Result.error.injEq] at hwork
      rw [← hwork.2]
      refine untouched_release hc ?_
      -- What the action left committed is its effect on what the connection saw.
      rw [hw] at hs
      have heffect : action.effect w session.database = ⟨.error e', s.database⟩ := by
        simp [Action.effect, hs]
      have hkept := ha w session.database e'
      rw [heffect] at hkept
      exact hkept rfl

/-- **A call that fails changes nothing.** -/
theorem untouched_of_call {c : Call} {e : CallError} (hcall : call c h = .error e h') :
    Untouched h h' := by
  have hstep : call c h = if h.service.gate.isOpen then
      work CallError.ofStorage c.program.run { h with journal := h.journal ++ [c.event] }
    else .error .notStarted { h with journal := h.journal ++ [c.event] } := by
    have htold : (tell c.event : Task CallError Unit) h
        = .ok () { h with journal := h.journal ++ [c.event] } := rfl
    by_cases hopen : h.service.gate.isOpen <;>
      simp [call, pass, bind, EStateM.bind, htold, hopen]
  rw [hstep] at hcall
  split at hcall
  · have hu := untouched_work (fun w db => ?_) hcall
    · exact ⟨hu.service, hu.content⟩
    · rw [Call.effect_run_program]
      exact Call.harmless_program c w db
  · simp only [EStateM.Result.error.injEq] at hcall
    rw [← hcall.2]
    exact ⟨rfl, fun p _ => rfl⟩

/-- A started store whose database has a user with a mapping that cannot be updated: no version may
follow this one. -/
def withDamagedMapping : Host where
  service :=
    { backing := .memory
        ((Database.migrated.put .user ["ada"] ⟨1, "{}"⟩).put .mapping ["ada", "default"] ⟨-1, "{}"⟩)
      defaults := {}
      gate := .started }
  disk := { entries := .empty }

/-- The user was updated when the mapping failed, and is as before all the same. -/
theorem untouched_of_damaged_mapping :
    ∃ h', call (.updateUser { id := "ada" } .empty) withDamagedMapping
        = .error (CallError.ofStorage .constraint) h' ∧ Untouched withDamagedMapping h' := by
  have hcall : call (.updateUser { id := "ada" } .empty) withDamagedMapping
      = .error (CallError.ofStorage .constraint)
          { withDamagedMapping with
            journal := [(Call.updateUser { id := "ada" } .empty).event] } := by
    rfl
  exact ⟨_, hcall, untouched_of_call hcall⟩

end Service

end AccessStore
