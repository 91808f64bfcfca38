/-
Overwriting a record that was looked at.

A client that overwrites a record relies on the version it has seen, and wants to be sure
that nobody has touched the record since.  The version is checked in the very step that
writes, so what succeeds has found the version that was seen.  Whether that means that
nobody touched the record is a question about versions alone: `Touch.applyAll_eq_iff`.

The answer is no.  A record that was removed and added again starts at version one, and
who has seen version one of the old record may overwrite the new one.  So there is a
second case besides that of an untouched record, `Touch.Recreated`, and the role at the
end of this file shows that it arises.  `untouched_of_not_removed` is what is left.
-/
import AccessStore.Proofs.Deeds

namespace AccessStore

namespace Deed

open Call (records records_ok)

variable {d : Deed} {w : Terms} {db db' : Database} {told : Told}

/-! ### Looking and overwriting -/

/-- What was told shows a record at a version. -/
inductive Shows : Deed → Told → Kind → Key → Version → Prop
  | get {kind : Kind} {key : Key} {r : Record} {v : Version} (hv : r.version = some v) :
      Shows (.call (.get kind key)) (.answer (.record (some r))) kind key v
  | read {kind : Kind} {key : Key} {r : Record} {v : Version} (hv : r.version = some v) :
      Shows (.read kind key) (.answer (.record (some r))) kind key v
  | lookUp {kind : Kind} {key : Key} {h : Handle} :
      Shows (.lookUp kind key) (.handle (some h)) kind key h.version

/-- To overwrite a record at a version, and no other. -/
inductive Overwrites : Deed → Kind → Key → Version → Prop
  | update {r : Record} {plain : r.kind ≠ .user} {v : Version} (hv : r.version = some v) :
      Overwrites (.call (.update r plain)) r.kind r.key v
  | updateUser {user : User} {roles : NameSet} {v : Version} (hv : user.version = some v) :
      Overwrites (.call (.updateUser user roles)) .user [user.id] v
  | write {h : Handle} {r : Record} : Overwrites (.write h r) r.kind h.key h.version

variable {kind : Kind} {key : Key} {v : Version}

private theorem version?_of_inRow {r : Record}
    (hr : Records.inRow kind key (db.row? kind key) = .ok (some r)) (hv : r.version = some v) :
    db.version? kind key = some v.number := by
  obtain ⟨-, row, hrow, hversion⟩ := Records.version_of_inRow hr
  rw [hv, Option.some.injEq] at hversion
  rw [Database.version?, hrow, hversion]
  rfl

private theorem version?_of_read {r : Record}
    (hok : (Records.read kind key).effect w db = ⟨.ok (some r), db'⟩) (hv : r.version = some v) :
    db' = db ∧ db.version? kind key = some v.number := by
  rw [Records.effect_read] at hok
  cases hr : w.readFault? db kind with
  | some fault => simp [hr] at hok
  | none =>
      simp only [hr, Outcome.mk.injEq] at hok
      exact ⟨hok.2.symm, version?_of_inRow hok.1 hv⟩

/-- The version that was shown is the stored one, and showing it changes nothing. -/
theorem version?_of_shows (hs : Shows d told kind key v) (hok : d.effect w db = ⟨.ok told, db'⟩) :
    db' = db ∧ db.version? kind key = some v.number := by
  cases hs with
  | get hv =>
      obtain ⟨answer, hanswer, htold⟩ := Program.bind_pure_ok.mp hok
      obtain ⟨found, hfound, hfound'⟩ := Program.bind_pure_ok.mp hanswer
      rw [← hfound'] at htold
      cases htold
      exact version?_of_read (records_ok.mp hfound) hv
  | read hv =>
      obtain ⟨found, hfound, htold⟩ := Program.bind_pure_ok.mp hok
      cases htold
      exact version?_of_read (records_ok.mp hfound) hv
  | lookUp =>
      obtain ⟨found, hfound, htold⟩ := Program.bind_pure_ok.mp hok
      cases htold
      have hfound := records_ok.mp hfound
      rw [Records.effect_handle?] at hfound
      cases hr : w.readFault? db kind with
      | some fault => simp [hr] at hfound
      | none =>
          simp only [hr, Outcome.mk.injEq, Except.ok.injEq] at hfound
          obtain ⟨hhandle, rfl⟩ := hfound
          obtain ⟨row, hrow, rfl⟩ := Option.map_eq_some_iff.mp hhandle
          exact ⟨rfl, Database.version?_of_row? hrow⟩

theorem version?_of_updateRecord {r : Record} {v' : Version}
    (hok : (Call.updateRecord r).effect w db = ⟨.ok v', db'⟩) (hv : r.version = some v) :
    db.version? r.kind r.key = some v.number := by
  obtain ⟨-, row, hrow, hcarried, -⟩ := Call.updateRecord_ok hok
  rw [Database.version?_of_row? hrow, hcarried v hv]

/-- What is overwritten has the version that was relied on. -/
theorem version?_of_overwrites (ho : Overwrites d kind key v)
    (hok : d.effect w db = ⟨.ok told, db'⟩) : db.version? kind key = some v.number := by
  cases ho with
  | update hv =>
      obtain ⟨answer, hanswer, -⟩ := Program.bind_pure_ok.mp hok
      obtain ⟨v', hupdate, -⟩ := Program.bind_pure_ok.mp hanswer
      exact version?_of_updateRecord hupdate hv
  | @updateUser user roles _ hv =>
      obtain ⟨answer, hanswer, -⟩ := Program.bind_pure_ok.mp hok
      obtain ⟨v', hatomic, -⟩ := Program.bind_pure_ok.mp hanswer
      have hbody := Program.atomic_ok (Call.plain_updateUserWith user roles) hatomic
      obtain ⟨db₁, hupdate, -⟩ := Call.updateUserWith_ok hbody
      exact version?_of_updateRecord hupdate hv
  | @write h r =>
      obtain ⟨v', hwrite, -⟩ := Program.bind_pure_ok.mp hok
      obtain ⟨-, hkey, -, hrow, -⟩ := Records.write_ok (records_ok.mp hwrite)
      rw [← hkey]
      exact hrow

/-! ### What else overwriting needs -/

/-- The deed does not fail. -/
def Succeeds (d : Deed) (w : Terms) (db : Database) : Prop :=
  ∃ told db', d.effect w db = ⟨.ok told, db'⟩

/-- Nothing but the version can keep a record from being written. -/
structure Writable (w : Terms) (db : Database) (r : Record) : Prop where
  identified : r.blankIdentity? = none
  storage : w.writeFault? db r.kind = none
  /-- The next version is positive. -/
  version : ∀ n, db.version? r.kind r.key = some n → 0 ≤ n

/-- Nothing but the version can keep a record from being overwritten. -/
inductive Unhindered (w : Terms) (db : Database) : Deed → Prop
  | update {r : Record} {plain : r.kind ≠ .user} (hr : Writable w db r) :
      Unhindered w db (.call (.update r plain))
  | updateUser {user : User} {roles : NameSet} (hw : w.barrier? = none)
      (hu : Writable w db (.user user)) (hm : Writable w db (.mapping (.ofUser user.id roles))) :
      Unhindered w db (.call (.updateUser user roles))
  | write {h : Handle} {r : Record} (hr : Writable w db r) (hkey : r.key = h.key) :
      Unhindered w db (.write h r)

theorem updateRecord_of_writable {r : Record} {n : Int} (hr : Writable w db r)
    (hn : db.version? r.kind r.key = some n)
    (hv : ∀ carried, r.version = some carried → carried.number = n) :
    (Call.updateRecord r).effect w db
      = ⟨.ok ⟨n + 1⟩, db.put r.kind r.key ⟨n + 1, Records.payload r⟩⟩ := by
  obtain ⟨row, hrow, rfl⟩ := Option.map_eq_some_iff.mp hn
  have hcurrent : Call.isOutdated r ⟨row.version⟩ = false := by
    rw [Bool.eq_false_iff]
    intro houtdated
    obtain ⟨carried, hcarried, hne⟩ := Call.isOutdated_iff.mp houtdated
    exact hne (congrArg Version.mk (hv carried hcarried))
  have hpos : ¬ row.version + 1 ≤ 0 := by
    have := hr.version _ hn
    omega
  rw [Call.effect_updateRecord, hr.identified, hr.storage, Terms.readFault?_of_writeFault? hr.storage]
  simp [hrow, hcurrent, hpos]

/-- What is written next has a positive version. -/
theorem Writable.one_le_nextVersion {r : Record} (hr : Writable w db r) :
    1 ≤ db.nextVersion r.kind r.key := by
  unfold Database.nextVersion
  cases hn : db.version? r.kind r.key with
  | none => decide
  | some n =>
      have hpos := hr.version n hn
      show 1 ≤ n + 1
      omega

/-- Putting a mapping puts it at the next version, whether there is one or not. -/
theorem putMapping_next {m : Mapping} (hm : Writable w db (.mapping m)) (hv : m.version = none) :
    (Call.putMapping m).effect w db = ⟨.ok (), db.put .mapping (Record.mapping m).key
      ⟨db.nextVersion .mapping (Record.mapping m).key, Records.payload (.mapping m)⟩⟩ := by
  rw [Call.effect_putMapping, Database.nextVersion, Database.version?]
  cases hrow : db.row? .mapping (Record.mapping m).key with
  | some row =>
      rw [updateRecord_of_writable hm (Database.version?_of_row? hrow) fun carried hcarried => by
        rw [show (Record.mapping m).version = m.version from rfl, hv] at hcarried
        cases hcarried]
      rfl
  | none =>
      -- The mapping is not found, and is added.
      have hmissing : (Call.updateRecord (.mapping m)).effect w db
          = ⟨.error (.notFound .mapping (Record.mapping m).key), db⟩ := by
        rw [Call.effect_updateRecord, hm.identified, Terms.readFault?_of_writeFault? hm.storage]
        simp only [Record.kind, hrow]
      have hadd : (Records.add (.mapping m)).effect w db = ⟨.ok Version.initial,
          db.put .mapping (Record.mapping m).key
            ⟨Version.initial.number, Records.payload (.mapping m)⟩⟩ := by
        rw [Records.effect_add, hm.identified, hm.storage]
        simp [Record.kind, hrow]
      rw [hmissing, Outcome.andThen_error, Outcome.orElse_error]
      simp only [Call.effect_records, hadd, Outcome.mapError_ok, Outcome.andThen_ok]
      rfl

/-- Updating a user puts the user and the mapping, each at its next version. -/
theorem updateUserWith_next {user : User} {roles : NameSet} {n : Int}
    (hu : Writable w db (.user user)) (hm : Writable w db (.mapping (.ofUser user.id roles)))
    (hn : db.version? .user [user.id] = some n)
    (hv : ∀ carried, user.version = some carried → carried.number = n) :
    (Call.updateUserWith user roles).effect w db = ⟨.ok ⟨n + 1⟩,
      (db.put .user [user.id] ⟨n + 1, Records.payload (.user user)⟩).put .mapping
        [user.id, Mapping.defaultSource] ⟨db.nextVersion .mapping [user.id, Mapping.defaultSource],
          Records.payload (.mapping (.ofUser user.id roles))⟩⟩ := by
  have hupdate := updateRecord_of_writable hu hn hv
  obtain ⟨t, ht⟩ : ∃ t, db.table? .user = some t := Terms.table?_of_writeFault? hu.storage
  -- Writing the user has changed nothing about the mapping.
  have hsame : (db.put .user [user.id] ⟨n + 1, Records.payload (.user user)⟩).version? .mapping
      [user.id, Mapping.defaultSource] = db.version? .mapping [user.id, Mapping.defaultSource] := by
    rw [Database.version?_put ht, if_neg (by simp)]
  have hm' : Writable w (db.put .user [user.id] ⟨n + 1, Records.payload (.user user)⟩)
      (.mapping (.ofUser user.id roles)) := by
    refine ⟨hm.identified, ?_, fun n hn => hm.version n (hsame ▸ hn)⟩
    rw [Terms.writeFault?_put w ht]
    exact hm.storage
  have hput := putMapping_next hm' rfl
  rw [Database.nextVersion, show (Record.mapping (.ofUser user.id roles)).key
    = [user.id, Mapping.defaultSource] from rfl, hsame] at hput
  rw [Call.updateUserWith, Program.effect_bind]
  refine Outcome.andThen_eq_ok.mpr ⟨_, _, hupdate, Program.bind_pure_ok.mpr ⟨(), ?_, rfl⟩⟩
  rw [Program.effect_once]
  exact hput

theorem updateUserWith_of_writable {user : User} {roles : NameSet} {n : Int}
    (hu : Writable w db (.user user)) (hm : Writable w db (.mapping (.ofUser user.id roles)))
    (hn : db.version? .user [user.id] = some n)
    (hv : ∀ carried, user.version = some carried → carried.number = n) :
    ∃ m, 1 ≤ m ∧ (Call.updateUserWith user roles).effect w db = ⟨.ok ⟨n + 1⟩,
      (db.put .user [user.id] ⟨n + 1, Records.payload (.user user)⟩).put .mapping
        [user.id, Mapping.defaultSource]
        ⟨m, Records.payload (.mapping (.ofUser user.id roles))⟩⟩ :=
  ⟨_, hm.one_le_nextVersion, updateUserWith_next hu hm hn hv⟩

theorem write_of_writable {h : Handle} {r : Record} (hr : Writable w db r) (hkey : r.key = h.key)
    (hv : db.version? r.kind r.key = some h.version.number) :
    (Records.write h r).effect w db = ⟨.ok h.version.next,
      db.put r.kind r.key ⟨h.version.number + 1, Records.payload r⟩⟩ := by
  obtain ⟨row, hrow, hversion⟩ := Option.map_eq_some_iff.mp hv
  have hpos : ¬ h.version.number + 1 ≤ 0 := by
    have := hr.version _ hv
    omega
  rw [Records.effect_write, hr.identified, hr.storage, if_neg (not_not_intro hkey)]
  simp [hrow, hversion, hpos]

/-- An overwriting that nothing else hinders succeeds if the version is the one relied on. -/
theorem succeeds_of_version? (ho : Overwrites d kind key v) (hu : Unhindered w db d)
    (hv : db.version? kind key = some v.number) : d.Succeeds w db := by
  cases ho with
  | @update r plain _ hcarried =>
      cases hu with
      | update hr =>
          have hupdate := updateRecord_of_writable hr hv fun carried h => by
            rw [hcarried, Option.some.injEq] at h
            rw [h]
          exact ⟨_, _, Program.bind_pure_ok.mpr ⟨_, Program.bind_pure_ok.mpr ⟨_, hupdate, rfl⟩, rfl⟩⟩
  | @updateUser user roles _ hcarried =>
      cases hu with
      | updateUser hw hr hm =>
          obtain ⟨m, -, hbody⟩ := updateUserWith_of_writable hr hm hv fun carried h => by
            rw [hcarried, Option.some.injEq] at h
            rw [h]
          have hatomic : ∃ db', (Program.atomic CallError.ofStorage
              (Call.updateUserWith user roles)).effect w db = ⟨.ok ⟨v.number + 1⟩, db'⟩ := by
            rw [Program.effect_atomic _ (Call.plain_updateUserWith user roles), hw, hbody]
            exact ⟨_, rfl⟩
          obtain ⟨db', hatomic⟩ := hatomic
          exact ⟨_, _, Program.bind_pure_ok.mpr ⟨_, Program.bind_pure_ok.mpr ⟨_, hatomic, rfl⟩, rfl⟩⟩
  | @write h r =>
      cases hu with
      | write hr hkey =>
          rw [← hkey] at hv
          exact ⟨_, _, Program.bind_pure_ok.mpr
            ⟨_, records_ok.mpr (write_of_writable hr hkey hv), rfl⟩⟩

/-! ### The result -/

section Result

variable {look writing : Deed} {w' : Terms} {db₀ : Database} {between : List (Terms × Deed)}

/-- What happened between a look at a record and now leaves the version as it was seen only if the
record is untouched or was made anew. -/
theorem version?_afterAll_iff (hlook : look.effect w db = ⟨.ok told, db₀⟩)
    (hshows : Shows look told kind key v) :
    (afterAll db₀ between).version? kind key = some v.number ↔
      touchesAll db₀ between kind key = [] ∨
        Touch.Recreated v.number (touchesAll db₀ between kind key) := by
  obtain ⟨rfl, hseen⟩ := version?_of_shows hshows hlook
  have hversion := (logs_afterAll db₀ between).version?_eq kind key
  rw [hversion, hseen, touchesAll, Touch.applyAll_eq_iff]

/-- **Who overwrites a record at a version seen before finds the record untouched, or made anew.**
In both cases the overwriting succeeds if nothing else hinders it. -/
theorem overwrite_after_look (hlook : look.effect w db = ⟨.ok told, db₀⟩)
    (hshows : Shows look told kind key v) (hover : Overwrites writing kind key v) (w' : Terms)
    (between : List (Terms × Deed)) :
    (writing.Succeeds w' (afterAll db₀ between) →
        touchesAll db₀ between kind key = [] ∨
          Touch.Recreated v.number (touchesAll db₀ between kind key)) ∧
      (Unhindered w' (afterAll db₀ between) writing →
        touchesAll db₀ between kind key = [] ∨
          Touch.Recreated v.number (touchesAll db₀ between kind key) →
        writing.Succeeds w' (afterAll db₀ between)) := by
  rw [← version?_afterAll_iff hlook hshows]
  refine ⟨?_, fun hu hv => succeeds_of_version? hover hu hv⟩
  rintro ⟨told', db', hok⟩
  exact version?_of_overwrites hover hok

/-- As long as nobody removes the record, who overwrites it has seen it as it is. -/
theorem untouched_of_not_removed (hlook : look.effect w db = ⟨.ok told, db₀⟩)
    (hshows : Shows look told kind key v) (hover : Overwrites writing kind key v)
    (hkept : Touch.removed ∉ touchesAll db₀ between kind key)
    (hok : writing.Succeeds w' (afterAll db₀ between)) : touchesAll db₀ between kind key = [] := by
  obtain ⟨told', db', hok⟩ := hok
  have hv := version?_of_overwrites hover hok
  rcases (version?_afterAll_iff hlook hshows).mp hv with huntouched | ⟨pre, post, hsplit, -⟩
  · exact huntouched
  · rw [hsplit] at hkept
    simp at hkept

/-- One would like a look and an overwriting to be like this: nobody comes in between. -/
def Undisturbed (look writing : Deed) : Prop :=
  ∀ (w w' : Terms) (db db₀ : Database) (between : List (Terms × Deed)) (told : Told) (kind : Kind)
    (key : Key) (v : Version), look.effect w db = ⟨.ok told, db₀⟩ → Shows look told kind key v →
    Overwrites writing kind key v → writing.Succeeds w' (afterAll db₀ between) →
    touchesAll db₀ between kind key = []

end Result

/-! ### A role that is made anew -/

/-- A role. -/
def devs : Record := .role { id := "dev", name := "Developers" }

/-- A database with this role only. -/
def oneRole : Database := Database.migrated.put .role ["dev"] ⟨1, Records.payload devs⟩

/-- Somebody removes the role and adds another one under its key. -/
def replaceRole : List (Terms × Deed) :=
  [(.free, .call (.remove .role ["dev"] (by decide))),
    (.free, .call (.add (.role { id := "dev", name := "Devices" }) (by decide)))]

/-- To write a role of one's own through the handle of the old one. -/
def writeMine : Deed := .write ⟨["dev"], ⟨1⟩⟩ (.role { id := "dev", name := "Mine" })

/-- To update the role, carrying the version of the old one. -/
def updateMine : Deed :=
  .call (.update (.role { id := "dev", version := some ⟨1⟩, name := "Mine" }) (by decide))

theorem lookUp_oneRole : (lookUp .role ["dev"]).effect .free oneRole
    = ⟨.ok (.handle (some ⟨["dev"], ⟨1⟩⟩)), oneRole⟩ := by
  rfl

theorem get_oneRole : (call (.get .role ["dev"])).effect .free oneRole
    = ⟨.ok (.answer (.record (some (devs.withVersion (some ⟨1⟩))))), oneRole⟩ := by
  have htext : Record.ofText .role (Records.payload devs) = .ok devs := by
    have hdecode : (Record.ofText .role (Records.payload devs)).toOption = some devs := by
      decide +kernel
    cases htext : Record.ofText .role (Records.payload devs) with
    | error fault => simp [htext, Except.toOption] at hdecode
    | ok r => rw [show r = devs by simpa [htext, Except.toOption] using hdecode]
  have hrow : Records.inRow .role ["dev"] (oneRole.row? .role ["dev"])
      = .ok (some (devs.withVersion (some ⟨1⟩))) := by
    show Records.inRow .role ["dev"] (some ⟨1, Records.payload devs⟩) = _
    simp only [Records.inRow, Records.ofRow, htext]
    rfl
  refine Program.bind_pure_ok.mpr ⟨_, Program.bind_pure_ok.mpr ⟨_, records_ok.mpr ?_, rfl⟩, rfl⟩
  rw [Records.effect_read, hrow]
  rfl

/-- The overwriting succeeds although the old role is gone and the new one is somebody else's. -/
theorem recreated_role_is_overwritten :
    ¬ Undisturbed (lookUp .role ["dev"]) writeMine ∧
      ¬ Undisturbed (call (.get .role ["dev"])) updateMine := by
  have htouched : touchesAll oneRole replaceRole .role ["dev"] ≠ [] := by
    decide +kernel
  constructor
  · intro h
    exact htouched (h .free .free oneRole oneRole replaceRole _ _ _ ⟨1⟩ lookUp_oneRole .lookUp .write
      ⟨_, _, by rfl⟩)
  · intro h
    exact htouched (h .free .free oneRole oneRole replaceRole _ _ _ ⟨1⟩ get_oneRole (.get rfl)
      (.update rfl) ⟨_, _, by rfl⟩)

/-- The new role has the version of the old one, and nothing else is in the way. -/
theorem role_recreated_before_overwriting :
    writeMine.Succeeds .free (afterAll oneRole replaceRole) ∧
      (touchesAll oneRole replaceRole .role ["dev"] = [] ∨
        Touch.Recreated 1 (touchesAll oneRole replaceRole .role ["dev"])) := by
  have hover : Overwrites writeMine .role ["dev"] ⟨1⟩ := .write
  have htouches : touchesAll oneRole replaceRole .role ["dev"] = [.removed, .written] := by
    decide +kernel
  have hrecreated : Touch.Recreated 1 (touchesAll oneRole replaceRole .role ["dev"]) :=
    ⟨[], [.written], htouches, by decide, by decide, rfl⟩
  have hversion : (afterAll oneRole replaceRole).version? .role ["dev"] = some 1 := by
    rfl
  have hfree : Unhindered .free (afterAll oneRole replaceRole) writeMine := by
    refine .write ⟨rfl, rfl, fun n hn => ?_⟩ rfl
    have hn1 : some n = some 1 := hn.symm.trans hversion
    rw [Option.some.inj hn1]
    decide
  have hresult := overwrite_after_look lookUp_oneRole .lookUp hover .free replaceRole
  have hsucceeds := hresult.2 hfree (.inr hrecreated)
  exact ⟨hsucceeds, hresult.1 hsucceeds⟩

end Deed

end AccessStore
