/-
Races for one record.

Three kinds of calls race for a record: updates that carry the stored version, additions
of a record that is not there, and removals of one that is.  Each time the one that comes
first has its way, and the rest find that it has: at their first look if they have not
begun by then, and otherwise where the statement that writes depends on the row.  So all
that has to be shown of a call is that it contends, for which it is taken apart into its
statements, and that a call on other records leaves the race alone, which is known from
what such a call changes.

`one_winner` holds wherever stores have worked, for any number of clients, however their
statements are interleaved.
-/
import AccessStore.Proofs.Overwriting
import AccessStore.Proofs.Races
import AccessStore.Proofs.UserMappings

namespace AccessStore

/-! ### Identities and versions -/

/-- Whether a record is named depends on its key alone. -/
theorem Record.blankIdentity?_eq_none {r : Record} :
    r.blankIdentity? = none ↔ ∀ part ∈ r.key, Text.isBlankText part = false := by
  simp only [blankIdentity?, key, Option.map_eq_none_iff, List.find?_eq_none, List.forall_mem_map,
    Bool.not_eq_true]

/-- The mapping of a user is named if the user is. -/
theorem Record.blankIdentity?_ofUser {user : User} (roles : NameSet)
    (h : (Record.user user).blankIdentity? = none) :
    (Record.mapping (.ofUser user.id roles)).blankIdentity? = none := by
  rw [Record.blankIdentity?_eq_none] at h ⊢
  intro part hpart
  rcases List.mem_cons.mp hpart with rfl | hpart
  · exact h _ List.mem_cons_self
  · rw [List.mem_singleton.mp hpart]
    show Text.isBlankText Mapping.defaultSource = false
    decide

theorem Version.next_ne (v : Version) : v.next.number ≠ v.number := by
  show v.number + 1 ≠ v.number
  omega

/-- A record is read back as it was put, at the version of its row. -/
theorem Records.read_of_row? {w : Terms} {db : Database} {r : Record} {v : Version} (hv : 1 ≤ v.number)
    (hread : w.readFault? db r.kind = none)
    (hrow : db.row? r.kind r.key = some ⟨v.number, payload r⟩) :
    (read r.kind r.key).effect w db = ⟨.ok (some (r.withVersion (some v))), db⟩ := by
  have hofRow : ofRow r.kind ⟨v.number, payload r⟩ = .ok (r.withVersion (some v)) := by
    rw [ofRow, r.ofText_payload]
    simp only [if_neg (show ¬ v.number < 1 by omega), Record.withVersion_withVersion]
  rw [effect_read, hread, hrow]
  simp only [inRow, hofRow, Record.key_withVersion, if_true]

namespace Database

variable {db db' : Database} {kind : Kind} {key : Key} {r : Record} {v : Version}

/-- A record under whose key there is a sound row is named. -/
theorem WellFormed.named (h : db.WellFormed) (hrow : (db.row? r.kind r.key).isSome) :
    r.blankIdentity? = none := by
  obtain ⟨row, hrow⟩ := Option.isSome_iff_exists.mp hrow
  obtain ⟨held, hheld⟩ := h.rows _ _ _ hrow
  rw [Record.blankIdentity?_eq_none, ← hheld.key]
  exact Record.blankIdentity?_eq_none.mp hheld.named

theorem row?_of_version? {n : Int} (h : db.version? kind key = some n) :
    ∃ payload, db.row? kind key = some ⟨n, payload⟩ := by
  obtain ⟨row, hrow, rfl⟩ := Option.map_eq_some_iff.mp h
  exact ⟨row.payload, hrow⟩

/-- The version after that of a sound row is positive. -/
theorem WellFormed.next_pos (h : db.WellFormed) (hv : db.version? kind key = some v.number) :
    1 ≤ v.next.number := by
  obtain ⟨payload, hrow⟩ := row?_of_version? hv
  obtain ⟨held, hheld⟩ := h.rows _ _ _ hrow
  have hpos : 1 ≤ v.number := hheld.version
  show 1 ≤ v.number + 1
  omega

theorem WellFormed.writable (h : db.WellFormed) (hnamed : r.blankIdentity? = none) :
    Deed.Writable .free db r := by
  refine ⟨hnamed, h.writeFault?_free _, ?_⟩
  intro n hn
  obtain ⟨payload, hrow⟩ := row?_of_version? hn
  obtain ⟨held, hheld⟩ := h.rows _ _ _ hrow
  have hv : 1 ≤ n := hheld.version
  omega

/-- Who gets the record of this key gets this one, at this version. -/
def Shows (db : Database) (r : Record) (v : Version) : Prop :=
  (Call.get r.kind r.key).program.effect .free db
    = ⟨.ok (.record (some (r.withVersion (some v)))), db⟩

/-- Who gets the mapping of a user under the default source gets just these roles, at this version. -/
def ShowsRoles (db : Database) (id : String) (roles : NameSet) (v : Version) : Prop :=
  (Call.get .mapping [id, "default"]).program.effect .free db = ⟨.ok (.record (some (.mapping
    { userId := id, source := "default", version := some v, roles }))), db⟩

theorem shows_of_row? (h : db.IsMigrated) (hv : 1 ≤ v.number)
    (hrow : db.row? r.kind r.key = some ⟨v.number, Records.payload r⟩) : db.Shows r v :=
  Program.bind_pure_ok.mpr
    ⟨_, Call.records_ok.mpr (Records.read_of_row? hv (h.readFault?_free _) hrow), rfl⟩

theorem showsRoles_of_row? (h : db.IsMigrated) {id : String} {roles : NameSet} (hv : 1 ≤ v.number)
    (hrow : db.row? .mapping [id, "default"] = some ⟨v.number,
      Records.payload (.mapping { userId := id, source := "default", roles })⟩) :
    db.ShowsRoles id roles v :=
  shows_of_row? (r := .mapping { userId := id, source := "default", roles }) h hv hrow

end Database

/-! ### The races -/

namespace Race

/-- To update the record of this key at this version. -/
def updating (kind : Kind) (key : Key) (v : Version) : Race where
  isOpen db := db.WellFormed ∧ db.version? kind key = some v.number
  isOver db := db.WellFormed ∧ db.version? kind key = some v.next.number
  won := .ok (.version v.next)
  lost := .error (.concurrentModification kind key)

/-- To add the record of this key, where there must be no rows in these spots. -/
def adding (kind : Kind) (key : Key) (spots : Kind → Key → Prop) : Race where
  isOpen db := db.WellFormed ∧ ∀ kind key, spots kind key → db.row? kind key = none
  isOver db := db.WellFormed ∧ (db.row? kind key).isSome
  won := .ok (.version .initial)
  lost := .error (.duplicateKey kind key)

/-- The record of this key is gone. -/
def Gone (kind : Kind) (key : Key) (db : Database) : Prop :=
  db.WellFormed ∧ db.row? kind key = none

/-- To remove the record of this key, which has this number for its version. -/
def removing (kind : Kind) (key : Key) (n : Int) : Race where
  isOpen db := db.WellFormed ∧ db.version? kind key = some n
  isOver := Gone kind key
  won := .ok (.removed true)
  lost := .ok (.removed false)

end Race

namespace Call

variable {db db' : Database} {kind : Kind} {key : Key} {r : Record} {v : Version}

/-- The record that an addition gives. -/
def added? : Call → Option Record
  | addUser user _ => some (.user user)
  | add r _ => some r
  | _ => none

/-- The kind and key of the record that a removal is to remove. -/
def removed? : Call → Option (Kind × Key)
  | removeUser id => some (.user, [id])
  | remove kind key _ => some (kind, key)
  | _ => none

/-- What a call that put a record at a version has left: the record is there, and so is the mapping that
is put with it, unless others may change that. -/
structure HasPut (c : Call) (r : Record) (v : Version) (others : Kind → Key → Prop) (db : Database) :
    Prop where
  wellFormed : db.WellFormed
  record : db.row? r.kind r.key = some ⟨v.number, Records.payload r⟩
  mapping : ∀ id roles, c.roles? id = some roles → ¬ others .mapping [id, "default"] →
    ∃ n, 1 ≤ n ∧ db.row? .mapping [id, "default"]
      = some ⟨n, Records.payload (.mapping { userId := id, source := "default", roles })⟩

/-! ### What is looked at and what is put -/

theorem effect_look (h : db.IsMigrated) (kind : Kind) (key : Key) :
    (((Action.select kind key).mapError .storage).mapError CallError.ofStore).effect .free db
      = ⟨.ok (db.row? kind key), db⟩ := by
  rw [Action.effect_mapError, Action.effect_mapError, Action.effect_select, h.readFault?_free]
  rfl

theorem HasPut.version? {c : Call} {others : Kind → Key → Prop} (h : c.HasPut r v others db) :
    db.version? r.kind r.key = some v.number := by
  rw [Database.version?, h.record]
  rfl

/-- A record that is put is there. -/
theorem hasPut_of_put {c : Call} {others : Kind → Key → Prop} (hdb : db.WellFormed)
    (hnamed : r.blankIdentity? = none) (hv : 1 ≤ v.number) (hc : ∀ id, c.roles? id = none) :
    c.HasPut r v others (db.put r.kind r.key ⟨v.number, Records.payload r⟩) := by
  obtain ⟨t, ht⟩ := Option.isSome_iff_exists.mp (hdb.tables r.kind)
  refine ⟨hdb.put hnamed hv, ?_, ?_⟩
  · rw [Database.row?_put_self ht]
  · intro id roles hroles
    rw [hc] at hroles
    cases hroles

/-- A user and the mapping that are put one after the other are both there. -/
theorem hasPut_of_putBoth {c : Call} {user : User} (roles : NameSet) {n : Int}
    {others : Kind → Key → Prop} (hdb : db.WellFormed)
    (hnamed : (Record.user user).blankIdentity? = none) (hv : 1 ≤ v.number) (hn : 1 ≤ n)
    (hc : ∀ id, c.roles? id = if user.id = id then some roles else none) :
    c.HasPut (.user user) v others
      ((db.put .user [user.id] ⟨v.number, Records.payload (.user user)⟩).put .mapping
        [user.id, Mapping.defaultSource] ⟨n, Records.payload (.mapping (.ofUser user.id roles))⟩) := by
  have huser : (db.put .user [user.id] ⟨v.number, Records.payload (.user user)⟩).WellFormed :=
    hdb.put hnamed hv
  obtain ⟨t, ht⟩ := Option.isSome_iff_exists.mp (hdb.tables .user)
  obtain ⟨t', ht'⟩ := Option.isSome_iff_exists.mp (huser.tables .mapping)
  refine ⟨huser.put (Record.blankIdentity?_ofUser roles hnamed) hn, ?_, ?_⟩
  · show Database.row? _ .user [user.id] = _
    rw [Database.row?_put ht', if_neg (by simp), Database.row?_put_self ht]
  · intro id roles' hroles _
    rw [hc] at hroles
    split at hroles
    · rename_i hid
      cases hid
      cases hroles
      exact ⟨n, hn, Database.row?_put_self ht' _ _⟩
    · cases hroles

/-! ### Updates -/

/-- Who updates a record advances its version. -/
theorem not_hasPut_next {c : Call} {others : Kind → Key → Prop}
    (hv : db.version? r.kind r.key = some v.number) : ¬ c.HasPut r v.next others db := by
  intro h
  have hnext := h.version?
  rw [hv] at hnext
  exact v.next_ne (Option.some.inj hnext).symm

theorem isOutdated_next (hcarried : r.version = some v) : isOutdated r v.next = true := by
  refine isOutdated_iff.mpr ⟨v, hcarried, ?_⟩
  intro h
  exact v.next_ne (congrArg Version.number h).symm

theorem not_isOutdated (hcarried : r.version = some v) : ¬ isOutdated r v = true := by
  simp [isOutdated, hcarried]

theorem effect_write_current (hdb : db.WellFormed) (hnamed : r.blankIdentity? = none)
    (hv : db.version? r.kind r.key = some v.number) :
    (records (Records.write ⟨r.key, v⟩ r) >>= fun v => pure (Answer.version v)).effect .free db
      = ⟨.ok (.version v.next), db.put r.kind r.key ⟨v.next.number, Records.payload r⟩⟩ := by
  have hwrite := Deed.write_of_writable (h := ⟨r.key, v⟩) (hdb.writable hnamed) rfl hv
  exact Program.bind_pure_ok.mpr ⟨_, records_ok.mpr hwrite, rfl⟩

theorem effect_write_outdated (hdb : db.WellFormed) (hnamed : r.blankIdentity? = none)
    (hv : db.version? r.kind r.key = some v.next.number) :
    (records (Records.write ⟨r.key, v⟩ r) >>= fun v => pure (Answer.version v)).effect .free db
      = ⟨.error (.concurrentModification r.kind r.key), db⟩ := by
  obtain ⟨payload, hrow⟩ := Database.row?_of_version? hv
  have hmissed : ¬ (db.row? r.kind r.key).any (·.version = v.number) := by
    simp [hrow, v.next_ne]
  rw [Program.effect_bind, effect_records, Records.effect_write, hnamed,
    if_neg (not_not_intro rfl), hdb.writeFault?_free]
  simp only [if_neg hmissed]
  rfl

/-- An update of a record that is no user contends: it looks, and then it writes. -/
theorem contends_update {plain : r.kind ≠ .user} (hnamed : r.blankIdentity? = none)
    (hcarried : r.version = some v) (others : Kind → Key → Prop) :
    (Race.updating r.kind r.key v).Contends ((Call.update r plain).HasPut r v.next others)
      (Call.update r plain).program := by
  rw [update_program hnamed]
  constructor
  · -- Somebody has won before the look.
    apply Race.loses_step
    intro db hover
    obtain ⟨payload, hrow⟩ := Database.row?_of_version? hover.2
    refine ⟨some ⟨v.next.number, payload⟩, by rw [effect_look hover.1.toIsMigrated, hrow], ?_⟩
    show Race.Loses _ (if isOutdated r v.next = true then _ else _)
    rw [if_pos (isOutdated_next hcarried)]
    rfl
  · intro db hopen
    left
    obtain ⟨payload, hrow⟩ := Database.row?_of_version? hopen.2
    refine ⟨some ⟨v.number, payload⟩, by rw [effect_look hopen.1.toIsMigrated, hrow], ?_⟩
    show Race.Contends _ _ (if isOutdated r v = true then _ else _)
    rw [if_neg (not_isOutdated hcarried)]
    -- What is left is the writing, in whose statement the version is checked again.
    refine Race.contends_of_isBrief ?_ ⟨db, hopen⟩ ?_ ?_ ?_
    · exact Program.isBrief_bind (Program.isBrief_mapError _ (isBrief_write _ _)) fun _ => trivial
    · intro db hopen
      exact not_hasPut_next hopen.2
    · intro db hopen
      exact ⟨_, effect_write_current hopen.1 hnamed hopen.2,
        hasPut_of_put hopen.1 hnamed (hopen.1.next_pos hopen.2) fun _ => rfl⟩
    · intro db hover
      exact effect_write_outdated hover.1 hnamed hover.2

theorem effect_updateRecord_outdated (hdb : db.WellFormed) (hnamed : r.blankIdentity? = none)
    (hcarried : r.version = some v) (hv : db.version? r.kind r.key = some v.next.number) :
    (updateRecord r).effect .free db = ⟨.error (.concurrentModification r.kind r.key), db⟩ := by
  obtain ⟨payload, hrow⟩ := Database.row?_of_version? hv
  have houtdated : isOutdated r ⟨v.next.number⟩ = true := isOutdated_next hcarried
  rw [effect_updateRecord, hnamed, hdb.readFault?_free]
  simp only [hrow, houtdated, if_true]

/-- An update of a user contends in the one step that it is. -/
theorem contends_updateUser {user : User} {roles : NameSet} (hcarried : user.version = some v)
    (hnamed : (Record.user user).blankIdentity? = none) (others : Kind → Key → Prop)
    (hsome : ∃ db, (Race.updating .user [user.id] v).isOpen db) :
    (Race.updating .user [user.id] v).Contends
      ((Call.updateUser user roles).HasPut (.user user) v.next others)
      (Call.updateUser user roles).program := by
  have hplain := plain_updateUserWith user roles
  refine Race.contends_of_isBrief (isBrief_program trivial) hsome ?_ ?_ ?_
  · intro db hopen
    exact not_hasPut_next hopen.2
  · intro db hopen
    have hmapping := Record.blankIdentity?_ofUser roles hnamed
    have hcurrent : ∀ carried, user.version = some carried → carried.number = v.number := by
      intro carried h
      rw [hcarried, Option.some.injEq] at h
      rw [h]
    obtain ⟨n, hn, hbody⟩ := Deed.updateUserWith_of_writable (hopen.1.writable hnamed)
      (hopen.1.writable hmapping) hopen.2 hcurrent
    refine ⟨_, Program.bind_pure_ok.mpr ⟨v.next, ?_, rfl⟩,
      hasPut_of_putBoth roles hopen.1 hnamed (hopen.1.next_pos hopen.2) hn fun _ => rfl⟩
    rw [Program.effect_atomic _ hplain, hbody]
    rfl
  · intro db hover
    have hupdate := effect_updateRecord_outdated (r := .user user) hover.1 hnamed hcarried hover.2
    rw [program, Program.effect_bind, Program.effect_atomic _ hplain, updateUserWith,
      Program.effect_bind, hupdate]
    rfl

/-! ### Additions -/

theorem effect_add_missing (hdb : db.WellFormed) (hnamed : r.blankIdentity? = none)
    (hrow : db.row? r.kind r.key = none) :
    (records (Records.add r)).effect .free db
      = ⟨.ok .initial, db.put r.kind r.key ⟨Version.initial.number, Records.payload r⟩⟩ := by
  rw [effect_records, Records.effect_add, hnamed, hdb.writeFault?_free, hrow]
  rfl

theorem effect_add_present (hdb : db.WellFormed) (hnamed : r.blankIdentity? = none)
    (hrow : (db.row? r.kind r.key).isSome) :
    (records (Records.add r)).effect .free db = ⟨.error (.duplicateKey r.kind r.key), db⟩ := by
  rw [effect_records, Records.effect_add, hnamed, hdb.writeFault?_free]
  simp only [hrow, if_true]
  rfl

/-- Where a record is to be added it is not there yet. -/
theorem not_hasPut_initial {c : Call} {spots others : Kind → Key → Prop} (hspot : spots r.kind r.key)
    (hopen : (Race.adding kind key spots).isOpen db) : ¬ c.HasPut r .initial others db := by
  intro h
  have hrow := h.record
  rw [hopen.2 _ _ hspot] at hrow
  cases hrow

theorem contends_add {plain : r.kind ≠ .user} (hnamed : r.blankIdentity? = none)
    {spots others : Kind → Key → Prop} (hspot : spots r.kind r.key)
    (hsome : ∃ db, (Race.adding r.kind r.key spots).isOpen db) :
    (Race.adding r.kind r.key spots).Contends ((Call.add r plain).HasPut r .initial others)
      (Call.add r plain).program := by
  refine Race.contends_of_isBrief (isBrief_program trivial) hsome ?_ ?_ ?_
  · intro db hopen
    exact not_hasPut_initial hspot hopen
  · intro db hopen
    have hadd := effect_add_missing hopen.1 hnamed (hopen.2 _ _ hspot)
    exact ⟨_, Program.bind_pure_ok.mpr ⟨_, hadd, rfl⟩,
      hasPut_of_put hopen.1 hnamed (v := .initial) (by decide) fun _ => rfl⟩
  · intro db hover
    rw [program, Program.effect_bind, effect_add_present hover.1 hnamed hover.2]
    rfl

/-- An addition of a user adds the mapping as well, so neither must be there. -/
theorem contends_addUser {user : User} {roles : NameSet}
    (hnamed : (Record.user user).blankIdentity? = none) {spots others : Kind → Key → Prop}
    (huser : spots .user [user.id]) (hmapping : spots .mapping [user.id, Mapping.defaultSource])
    (hsome : ∃ db, (Race.adding .user [user.id] spots).isOpen db) :
    (Race.adding .user [user.id] spots).Contends
      ((Call.addUser user roles).HasPut (.user user) .initial others)
      (Call.addUser user roles).program := by
  have hplain := plain_addUserWith user roles
  refine Race.contends_of_isBrief (isBrief_program trivial) hsome ?_ ?_ ?_
  · intro db hopen
    exact not_hasPut_initial (r := .user user) huser hopen
  · intro db hopen
    have hnamed' := Record.blankIdentity?_ofUser roles hnamed
    have hadd := effect_add_missing (r := .user user) hopen.1 hnamed (hopen.2 _ _ huser)
    have hput := hopen.1.put (v := Version.initial.number) hnamed (by decide)
    have hmissing : (db.put .user [user.id]
        ⟨Version.initial.number, Records.payload (.user user)⟩).row? .mapping
          [user.id, Mapping.defaultSource] = none := by
      rw [Database.row?_put_ne _ _ (by simp)]
      exact hopen.2 _ _ hmapping
    have hadd' := effect_add_missing hput hnamed' hmissing
    refine ⟨_, Program.bind_pure_ok.mpr ⟨.initial, ?_, rfl⟩,
      hasPut_of_putBoth roles (v := .initial) (n := Version.initial.number) hopen.1 hnamed
        (by decide) (by decide) fun _ => rfl⟩
    have hbody : (addUserWith user roles).effect .free db = _ :=
      (Program.effect_bind _ _ _ _).trans (Outcome.andThen_eq_ok.mpr
        ⟨_, _, hadd, Program.bind_pure_ok.mpr ⟨.initial, hadd', rfl⟩⟩)
    rw [Program.effect_atomic _ hplain, hbody]
    rfl
  · intro db hover
    have hadd := effect_add_present (r := .user user) hover.1 hnamed hover.2
    rw [program, Program.effect_bind, Program.effect_atomic _ hplain, addUserWith,
      Program.effect_bind, hadd]
    rfl

/-! ### Removals -/

theorem gone_of_drop (hdb : db.WellFormed) (kind : Kind) (key : Key) :
    Race.Gone kind key (db.drop kind key) := by
  obtain ⟨t, ht⟩ := Option.isSome_iff_exists.mp (hdb.tables kind)
  refine ⟨hdb.drop kind key, ?_⟩
  rw [Database.row?_drop_self ht]

theorem effect_deletion (hdb : db.IsMigrated) (kind : Kind) (key : Key) (n : Int) :
    (((Action.delete kind key n).mapError .storage).mapError CallError.ofStore).effect .free db
      = if db.version? kind key = some n then ⟨.ok true, db.drop kind key⟩
        else ⟨.ok false, db⟩ := by
  rw [Action.effect_mapError, Action.effect_mapError, Action.effect_delete, hdb.writeFault?_free]
  cases hrow : db.row? kind key with
  | none => simp [Database.version?, hrow]
  | some row => by_cases hv : row.version = n <;> simp [Database.version?, hrow, hv]

/-- A removal of a record that is no user contends: it looks, deletes, and if it was too late for
that, it looks once more. -/
theorem contends_remove {plain : kind ≠ .user} (n : Int) :
    (Race.removing kind key n).Contends (Race.Gone kind key) (Call.remove kind key plain).program := by
  have hlook (db : Database) (hover : (Race.removing kind key n).isOver db) :
      (((Action.select kind key).mapError .storage).mapError CallError.ofStore).effect .free db
        = ⟨.ok none, db⟩ := by
    rw [effect_look hover.1.toIsMigrated, hover.2]
  rw [remove_program]
  constructor
  · apply Race.loses_step
    intro db hover
    exact ⟨none, hlook db hover, rfl⟩
  · intro db hopen
    left
    obtain ⟨payload, hrow⟩ := Database.row?_of_version? hopen.2
    refine ⟨some ⟨n, payload⟩, by rw [effect_look hopen.1.toIsMigrated, hrow], ?_⟩
    dsimp only
    rw [deleteAt_program]
    constructor
    · -- Nothing is deleted, and the second look finds no other record in its place.
      apply Race.loses_step
      intro db hover
      refine ⟨false, ?_, Race.loses_step ?_⟩
      · rw [effect_deletion hover.1.toIsMigrated, if_neg (by simp [Database.version?, hover.2])]
      · intro db hover
        exact ⟨none, hlook db hover, rfl⟩
    · intro db hopen
      right
      rw [effect_deletion hopen.1.toIsMigrated, if_pos hopen.2]
      exact ⟨gone_of_drop hopen.1 kind key, rfl⟩

theorem effect_delete_free (hdb : db.IsMigrated) (kind : Kind) (key : Key) :
    (records (Records.delete kind key)).effect .free db
      = if (db.row? kind key).isSome then ⟨.ok true, db.drop kind key⟩ else ⟨.ok false, db⟩ := by
  rw [effect_records, Records.effect_delete, hdb.readFault?_free, hdb.writeFault?_free]
  by_cases hrow : (db.row? kind key).isSome <;> simp [hrow]

/-- A removal of a user contends in the one step that it is. -/
theorem contends_removeUser {id : String} {n : Int}
    (hsome : ∃ db, (Race.removing .user [id] n).isOpen db) :
    (Race.removing .user [id] n).Contends (Race.Gone .user [id]) (Call.removeUser id).program := by
  have hplain := plain_removeUserWith id
  refine Race.contends_of_isBrief (isBrief_program trivial) hsome ?_ ?_ ?_
  · intro db hopen hgone
    have hv := hopen.2
    rw [Database.version?, hgone.2] at hv
    cases hv
  · intro db hopen
    obtain ⟨payload, hrow⟩ := Database.row?_of_version? hopen.2
    have hdeleted := effect_delete_free hopen.1.toIsMigrated .user [id]
    rw [hrow, Option.isSome_some, if_pos rfl] at hdeleted
    have hgone := gone_of_drop hopen.1 .user [id]
    -- Whether there is a mapping to delete or not, the user is gone.
    obtain ⟨existed, db', hmapping, hdb'⟩ : ∃ existed db', (records (Records.delete .mapping
        [id, Mapping.defaultSource])).effect .free (db.drop .user [id]) = ⟨.ok existed, db'⟩ ∧
          Race.Gone .user [id] db' := by
      rw [effect_delete_free hgone.1.toIsMigrated]
      split
      · refine ⟨true, _, rfl, hgone.1.drop _ _, ?_⟩
        rw [Database.row?_drop_ne _ (by simp), hgone.2]
      · exact ⟨false, _, rfl, hgone⟩
    refine ⟨db', Program.bind_pure_ok.mpr ⟨true, ?_, rfl⟩, hdb'⟩
    rw [Program.effect_atomic _ hplain, removeUserWith, Program.effect_bind, hdeleted,
      Outcome.andThen_ok, if_pos rfl, Program.effect_bind, hmapping]
    rfl
  · intro db hover
    have hmissing := effect_delete_free hover.1.toIsMigrated .user [id]
    rw [hover.2] at hmissing
    rw [program, Program.effect_bind, Program.effect_atomic _ hplain, removeUserWith,
      Program.effect_bind, hmissing]
    rfl

/-! ### Calls that race -/

/-- The call updates the record of this key, and this is the record and the version that it carries. -/
structure Updates (c : Call) (kind : Kind) (key : Key) (v : Version) (r : Record) : Prop where
  updated? : c.updated? = some r
  kind : r.kind = kind
  key : r.key = key
  version : r.version = some v

/-- The call adds this record, which has this key and is named. -/
structure Adds (c : Call) (kind : Kind) (key : Key) (r : Record) : Prop where
  added? : c.added? = some r
  kind : r.kind = kind
  key : r.key = key
  named : r.blankIdentity? = none

theorem Updates.contends {c : Call} (h : c.Updates kind key v r) (others : Kind → Key → Prop)
    (hopen : (Race.updating kind key v).isOpen db) :
    (Race.updating kind key v).Contends (c.HasPut r v.next others) c.program := by
  obtain ⟨hr, rfl, rfl, hv⟩ := h
  obtain ⟨payload, hrow⟩ := Database.row?_of_version? hopen.2
  have hnamed : r.blankIdentity? = none := hopen.1.named (by rw [hrow]; rfl)
  cases c with
  | updateUser user roles =>
      obtain rfl := Option.some.inj hr
      exact contends_updateUser hv hnamed others ⟨db, hopen⟩
  | update r' plain =>
      obtain rfl := Option.some.inj hr
      exact contends_update hnamed hv others
  | _ => cases hr

theorem Adds.contends {c : Call} (h : c.Adds kind key r) {spots : Kind → Key → Prop}
    (hspots : ∀ kind key, c.changes kind key → spots kind key) (others : Kind → Key → Prop)
    (hopen : (Race.adding kind key spots).isOpen db) :
    (Race.adding kind key spots).Contends (c.HasPut r .initial others) c.program := by
  obtain ⟨hr, rfl, rfl, hnamed⟩ := h
  cases c with
  | addUser user roles =>
      obtain rfl := Option.some.inj hr
      exact contends_addUser hnamed (hspots _ _ (.inl rfl)) (hspots _ _ (.inr rfl)) ⟨db, hopen⟩
  | add r' plain =>
      obtain rfl := Option.some.inj hr
      exact contends_add hnamed (hspots _ _ rfl) ⟨db, hopen⟩
  | _ => cases hr

theorem contends_of_removed? {c : Call} {n : Int} (h : c.removed? = some (kind, key))
    (hopen : (Race.removing kind key n).isOpen db) :
    (Race.removing kind key n).Contends (Race.Gone kind key) c.program := by
  cases c with
  | removeUser id =>
      obtain ⟨rfl, rfl⟩ := Prod.mk.inj (Option.some.inj h)
      exact contends_removeUser ⟨db, hopen⟩
  | remove kind' key' plain =>
      obtain ⟨rfl, rfl⟩ := Prod.mk.inj (Option.some.inj h)
      exact contends_remove n
  | _ => cases h

/-! ### Calls on other records -/

theorem HasPut.of_edited {c : Call} {others spots : Kind → Key → Prop} (h : c.HasPut r v others db)
    (he : Edited spots db db') (hr : ¬ spots r.kind r.key)
    (hm : ∀ key, spots .mapping key → others .mapping key) : c.HasPut r v others db' := by
  refine ⟨h.wellFormed.of_edited he, ?_, ?_⟩
  · rw [he.row?_eq hr, h.record]
  · intro id roles hroles hfree
    rw [he.row?_eq fun hspot => hfree (hm _ hspot)]
    exact h.mapping id roles hroles hfree

/-- Who looks afterwards finds the record that the call gave, at this version, and the roles given with
it, unless others may have changed those. -/
structure Shown (c : Call) (r : Record) (v : Version) (others : Kind → Key → Prop) (db : Database) :
    Prop where
  record : db.Shows r v
  roles : ∀ id roles, c.roles? id = some roles → ¬ others .mapping [id, "default"] →
    ∃ w, db.ShowsRoles id roles w

theorem HasPut.shown {c : Call} {others : Kind → Key → Prop} (h : c.HasPut r v others db)
    (hv : 1 ≤ v.number) : c.Shown r v others db := by
  refine ⟨Database.shows_of_row? h.wellFormed.toIsMigrated hv h.record, ?_⟩
  intro id roles hroles hfree
  obtain ⟨n, hn, hrow⟩ := h.mapping id roles hroles hfree
  exact ⟨⟨n⟩, Database.showsRoles_of_row? h.wellFormed.toIsMigrated hn hrow⟩

end Call

namespace Play

variable {ι : Type} {calls : ι → Call} {racer : ι → Prop} {db : Database} {kind : Kind} {key : Key}
  {v : Version}

/-- The spots that calls without a part in the race may change. -/
def others (calls : ι → Call) (racer : ι → Prop) (kind : Kind) (key : Key) : Prop :=
  ∃ j, ¬ racer j ∧ (calls j).changes kind key

/-- What other calls do is done elsewhere. -/
theorem edited_of_other (calls : ι → Call) (j : ι) (hj : ¬ racer j) (db : Database) :
    Edited (others calls racer) db ((calls j).program.effect .free db).database :=
  (Call.edited_program (calls j) .free db).mono fun _ _ h => ⟨j, hj, h⟩

theorem racing_updates (halone : ¬ others calls racer kind key)
    (hopen : (Race.updating kind key v).isOpen db)
    (hracers : ∀ i, racer i → ∃ r, (calls i).Updates kind key v r) :
    Racing calls racer (.updating kind key v) fun i db => ∃ r, (calls i).Updates kind key v r ∧
      (calls i).HasPut r v.next (others calls racer) db where
  contends i hi := by
    obtain ⟨r, hr⟩ := hracers i hi
    exact (hr.contends _ hopen).mono fun db hput => ⟨r, hr, hput⟩
  isOver_of_wins i db hi := by
    rintro ⟨r, hr, hput⟩
    have hversion := hput.version?
    rw [hr.kind, hr.key] at hversion
    exact ⟨hput.wellFormed, hversion⟩
  isOpen_of_other j db hj hopen := by
    have he := edited_of_other calls j hj db
    exact ⟨hopen.1.of_edited he, by rw [he.version?_eq halone, hopen.2]⟩
  wins_of_other i j db hi hj := by
    rintro ⟨r, hr, hput⟩
    refine ⟨r, hr, hput.of_edited (edited_of_other calls j hj db) ?_ fun _ h => h⟩
    rwa [hr.kind, hr.key]

theorem racing_adds {spots : Kind → Key → Prop} (halone : ¬ others calls racer kind key)
    (hspots : ∀ kind key, spots kind key → ¬ others calls racer kind key)
    (hopen : (Race.adding kind key spots).isOpen db)
    (hracers : ∀ i, racer i → (∃ r, (calls i).Adds kind key r) ∧
      ∀ kind key, (calls i).changes kind key → spots kind key) :
    Racing calls racer (.adding kind key spots) fun i db => ∃ r, (calls i).Adds kind key r ∧
      (calls i).HasPut r .initial (others calls racer) db where
  contends i hi := by
    obtain ⟨⟨r, hr⟩, hchanges⟩ := hracers i hi
    exact (hr.contends hchanges _ hopen).mono fun db hput => ⟨r, hr, hput⟩
  isOver_of_wins i db hi := by
    rintro ⟨r, hr, hput⟩
    have hrow := hput.record
    rw [hr.kind, hr.key] at hrow
    exact ⟨hput.wellFormed, by rw [hrow]; rfl⟩
  isOpen_of_other j db hj hopen := by
    have he := edited_of_other calls j hj db
    refine ⟨hopen.1.of_edited he, ?_⟩
    intro kind key hspot
    rw [he.row?_eq (hspots kind key hspot), hopen.2 kind key hspot]
  wins_of_other i j db hi hj := by
    rintro ⟨r, hr, hput⟩
    refine ⟨r, hr, hput.of_edited (edited_of_other calls j hj db) ?_ fun _ h => h⟩
    rwa [hr.kind, hr.key]

theorem racing_removals {n : Int} (halone : ¬ others calls racer kind key)
    (hopen : (Race.removing kind key n).isOpen db)
    (hracers : ∀ i, racer i → (calls i).removed? = some (kind, key)) :
    Racing calls racer (.removing kind key n) fun _ => Race.Gone kind key where
  contends i hi := Call.contends_of_removed? (hracers i hi) hopen
  isOver_of_wins _ _ _ hgone := hgone
  isOpen_of_other j db hj hopen := by
    have he := edited_of_other calls j hj db
    exact ⟨hopen.1.of_edited he, by rw [he.version?_eq halone, hopen.2]⟩
  wins_of_other i j db _ hj hgone := by
    have he := edited_of_other calls j hj db
    exact ⟨hgone.1.of_edited he, by rw [he.row?_eq halone, hgone.2]⟩

variable [DecidableEq ι]

/-- **Of calls that race for a record one has its way.**  Calls race that update the record carrying
the stored version, that add it where it is not there, or that remove it.  However their statements
are interleaved with one another and with those of calls on other records, one of them is answered
as if the others had not been, its record is what is found in the end, and the others are all told
that they came too late. -/
theorem one_winner (hr : db.Reached) (calls : ι → Call) (racer : ι → Prop) (schedule : List ι)
    (hsome : ∃ i, racer i)
    (hended : ∀ i, racer i → ((run calls db schedule).reply? i).isSome)
    (halone : ¬ others calls racer kind key) :
    (∀ v : Version, db.version? kind key = some v.number →
        (∀ i, racer i → ∃ r, (calls i).Updates kind key v r) →
        (run calls db schedule).OneWinner racer (.ok (.version v.next))
          (.error (.concurrentModification kind key)) fun i => ∃ r,
            (calls i).Updates kind key v r ∧
              (calls i).Shown r v.next (others calls racer) (run calls db schedule).database) ∧
      ((∀ i, racer i → ∃ r, (calls i).Adds kind key r) →
        (∀ i, racer i → ∀ kind key, (calls i).changes kind key →
          db.row? kind key = none ∧ ¬ others calls racer kind key) →
        (run calls db schedule).OneWinner racer (.ok (.version .initial))
          (.error (.duplicateKey kind key)) fun i => ∃ r, (calls i).Adds kind key r ∧
            (calls i).Shown r .initial (others calls racer) (run calls db schedule).database) ∧
      ((db.row? kind key).isSome → (∀ i, racer i → (calls i).removed? = some (kind, key)) →
        (run calls db schedule).OneWinner racer (.ok (.removed true)) (.ok (.removed false)) fun _ =>
          (run calls db schedule).database.row? kind key = none) := by
  have hdb := hr.wellFormed
  refine ⟨?_, ?_, ?_⟩
  · intro v hv hracers
    have hopen : (Race.updating kind key v).isOpen db := ⟨hdb, hv⟩
    refine ((racing_updates halone hopen hracers).oneWinner hopen hsome hended).mono ?_
    rintro i ⟨r, hupdates, hput⟩
    exact ⟨r, hupdates, hput.shown (hdb.next_pos hv)⟩
  · intro hracers hfree
    have hopen : (Race.adding kind key fun kind key =>
        ∃ i, racer i ∧ (calls i).changes kind key).isOpen db := by
      refine ⟨hdb, ?_⟩
      rintro kind key ⟨i, hi, hchanges⟩
      exact (hfree i hi kind key hchanges).1
    have hspots : ∀ kind key, (∃ i, racer i ∧ (calls i).changes kind key) →
        ¬ others calls racer kind key := by
      rintro kind key ⟨i, hi, hchanges⟩
      exact (hfree i hi kind key hchanges).2
    have hracing := racing_adds halone hspots hopen fun i hi =>
      ⟨hracers i hi, fun kind key hchanges => ⟨i, hi, hchanges⟩⟩
    refine (hracing.oneWinner hopen hsome hended).mono ?_
    rintro i ⟨r, hadds, hput⟩
    exact ⟨r, hadds, hput.shown (by decide)⟩
  · intro hrow hracers
    obtain ⟨row, hrow⟩ := Option.isSome_iff_exists.mp hrow
    have hopen : (Race.removing kind key row.version).isOpen db := by
      exact ⟨hdb, Database.version?_of_row? hrow⟩
    refine ((racing_removals halone hopen hracers).oneWinner hopen hsome hended).mono ?_
    rintro i ⟨-, hgone⟩
    exact hgone

/-- Each of two clients adds a role under the same key. -/
def addDev (first : Bool) : Call :=
  .add (.role { id := "dev", name := if first then "Developers" else "Devices" })
    (by simp [Record.kind])

/-- Each of them updates the first version of the role. -/
def updateDev (first : Bool) : Call :=
  .update (.role { id := "dev", version := some .initial, name := if first then "A" else "B" })
    (by simp [Record.kind])

/-- Each of them removes the role. -/
def removeDev (_ : Bool) : Call := .remove .role ["dev"] nofun

/-- The clients take turns, more or less. -/
def turns : List Bool := [true, false, true, false, false, true, true, false]

/-- Each of them adds the same user, with a role of its own. -/
def addAda (first : Bool) : Call :=
  .addUser { id := "ada" } (.ofList [if first then "dev" else "ops"])

/-- Each of them updates the first version of the user, again with a role of its own. -/
def updateAda (first : Bool) : Call :=
  .updateUser { id := "ada", version := some .initial } (.ofList [if first then "qa" else "lead"])

/-- Of the additions one wins, and so does one of the updates and one of the removals thereafter.  Of the
updates of a user, the one that wins has given the user its role and no other. -/
theorem one_winner_of_two :
    let added := (run addDev .migrated turns).database
    ((run addDev .migrated turns).OneWinner (fun _ => True) (.ok (.version .initial))
        (.error (.duplicateKey .role ["dev"])) fun i => ∃ r, (addDev i).added? = some r ∧
          added.Shows r .initial) ∧
      ((run updateDev added turns).OneWinner (fun _ => True) (.ok (.version Version.initial.next))
        (.error (.concurrentModification .role ["dev"])) fun i => ∃ r,
          (updateDev i).updated? = some r ∧
            (run updateDev added turns).database.Shows r Version.initial.next) ∧
      (run removeDev added turns).OneWinner (fun _ => True) (.ok (.removed true))
        (.ok (.removed false)) (fun _ =>
          (run removeDev added turns).database.row? .role ["dev"] = none) ∧
      let ada := (run addAda .migrated turns).database
      (run updateAda ada turns).OneWinner (fun _ => True) (.ok (.version Version.initial.next))
        (.error (.concurrentModification .user ["ada"])) fun i =>
          (run updateAda ada turns).database.Shows (.user { id := "ada" }) Version.initial.next ∧
            ∃ n, (run updateAda ada turns).database.ShowsRoles "ada"
              (.ofList [if i then "qa" else "lead"]) n := by
  intro added
  have hfresh : Database.migrated.Reached := .fresh rfl
  have hadded : added.Reached := .played hfresh addDev turns
  have hended (calls : Bool → Call) (db : Database) (i : Bool) :
      ((run calls db turns).reply? i).isSome :=
    isSome_reply?_of_turns calls db (by cases i <;> decide)
  have halone (calls : Bool → Call) (kind : Kind) (key : Key) :
      ¬ others calls (fun _ => True) kind key := by
    rintro ⟨j, hj, -⟩
    exact hj trivial
  refine ⟨?_, ?_, ?_, ?_⟩
  · have hadds := (one_winner hfresh addDev (fun _ => True) turns ⟨true, trivial⟩
      (fun i _ => hended addDev _ i) (halone addDev .role ["dev"])).2.1
    refine (hadds (fun i _ => ⟨_, rfl, rfl, rfl, by cases i <;> rfl⟩) ?_).mono ?_
    · exact fun i _ kind key hchanges => ⟨by cases hchanges; rfl, halone addDev kind key⟩
    · exact fun i ⟨r, hr, hshown⟩ => ⟨r, hr.added?, hshown.record⟩
  · have hupdates := (one_winner hadded updateDev (fun _ => True) turns ⟨true, trivial⟩
      (fun i _ => hended updateDev _ i) (halone updateDev .role ["dev"])).1
    refine (hupdates .initial rfl fun i _ => ⟨_, rfl, rfl, rfl, rfl⟩).mono ?_
    exact fun i ⟨r, hr, hshown⟩ => ⟨r, hr.updated?, hshown.record⟩
  · have hremovals := (one_winner hadded removeDev (fun _ => True) turns ⟨true, trivial⟩
      (fun i _ => hended removeDev _ i) (halone removeDev .role ["dev"])).2.2
    exact hremovals rfl fun _ _ => rfl
  · intro ada
    have hada : ada.Reached := .played hfresh addAda turns
    have hupdates := (one_winner hada updateAda (fun _ => True) turns ⟨true, trivial⟩
      (fun i _ => hended updateAda _ i) (halone updateAda .user ["ada"])).1
    refine (hupdates .initial rfl fun i _ => ⟨_, rfl, rfl, rfl, rfl⟩).mono ?_
    rintro i ⟨r, hr, hshown⟩
    obtain rfl := Option.some.inj hr.updated?
    exact ⟨hshown.record, hshown.roles "ada" _ rfl (halone updateAda _ _)⟩

end Play

end AccessStore
