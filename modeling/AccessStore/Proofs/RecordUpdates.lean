/-
Updates of roles, privileges and mappings, exactly.

An update looks at the row of its key, compares versions and writes, and nothing else can come of
it than `Call.updateOutcome` says, check by check.  What the row holds plays no part in it: the
version stands in a column of its own and is all that an update looks at, so a row that nobody can
read is updated like any other and can be read again afterwards.

The four things that an update can answer exclude each other, and each has a condition of its own;
`Call.UpdateAnswer` has them one by one.  That the record which is then read is the one that was
given, and no mere likeness, rests on the way back through its text, `Records.ofRow_payload`.
-/
import AccessStore.Proofs.Independence
import AccessStore.Proofs.Winners

namespace AccessStore

namespace Record

variable {r : Record} {field : String}

/-- No identifying field of the record is blank. -/
def IsNamed (r : Record) : Prop := ∀ f ∈ r.identity, Text.isBlankText f.2 = false

/-- The field is an identifying one, it is blank, and none before it is. -/
def FirstBlank (r : Record) (field : String) : Prop :=
  ∃ before value rest, r.identity = before ++ (field, value) :: rest ∧
    Text.isBlankText value = true ∧ ∀ f ∈ before, Text.isBlankText f.2 = false

theorem blankIdentity?_eq_none_iff : r.blankIdentity? = none ↔ r.IsNamed := by
  rw [blankIdentity?_eq_none, key, List.forall_mem_map]
  rfl

theorem blankIdentity?_of_firstBlank (h : r.FirstBlank field) :
    r.blankIdentity? = some ⟨r.kind, field⟩ := by
  obtain ⟨before, value, rest, hidentity, hblank, hbefore⟩ := h
  have hfound : r.identity.find? (fun f => Text.isBlankText f.2) = some (field, value) :=
    List.find?_eq_some_iff_append.mpr ⟨hblank, before, rest, hidentity, by simpa using hbefore⟩
  rw [blankIdentity?, hfound]
  rfl

/-- A record is named, or one of its fields is the first blank one. -/
theorem isNamed_or_firstBlank (r : Record) : r.IsNamed ∨ ∃ field, r.FirstBlank field := by
  cases hfound : r.identity.find? (fun f => Text.isBlankText f.2) with
  | none =>
      left
      intro f hf
      simpa using List.find?_eq_none.mp hfound f hf
  | some f =>
      obtain ⟨hblank, before, rest, hidentity, hbefore⟩ := List.find?_eq_some_iff_append.mp hfound
      exact .inr ⟨f.1, before, f.2, rest, hidentity, hblank, by simpa using hbefore⟩

theorem FirstBlank.not_isNamed (h : r.FirstBlank field) : ¬ r.IsNamed := by
  obtain ⟨before, value, rest, hidentity, hblank, -⟩ := h
  intro hnamed
  have hfalse := hnamed (field, value) (by simp [hidentity])
  rw [hblank] at hfalse
  cases hfalse

theorem FirstBlank.unique {other : String} (h : r.FirstBlank field) (h' : r.FirstBlank other) :
    field = other := by
  have hsome := (blankIdentity?_of_firstBlank h).symm.trans (blankIdentity?_of_firstBlank h')
  simpa using hsome

end Record

/-! ### What is to be expected -/

namespace Call

variable {r : Record} {db : Database} {row : Row} {field : String}

/-- What comes of updating a record that is no user. -/
def updateOutcome (r : Record) (db : Database) : Outcome CallError Answer :=
  match r.blankIdentity? with
  | some blank => ⟨.error (.invalid blank), db⟩
  | none =>
    match db.version? r.kind r.key with
    | none => ⟨.error (.notFound r.kind r.key), db⟩
    | some v =>
        if isOutdated r ⟨v⟩ then ⟨.error (.concurrentModification r.kind r.key), db⟩
        else ⟨.ok (.version ⟨v + 1⟩), db.put r.kind r.key ⟨v + 1, Records.payload r⟩⟩

/-- The record carries the version of the row, or none. -/
def IsCurrent (r : Record) (row : Row) : Prop :=
  ∀ carried, r.version = some carried → carried.number = row.version

theorem isOutdated_eq_false_iff : isOutdated r ⟨row.version⟩ = false ↔ IsCurrent r row := by
  rw [← Bool.not_eq_true, isOutdated_iff]
  constructor
  · intro h carried hcarried
    refine Decidable.byContradiction fun hne => h ⟨carried, hcarried, ?_⟩
    rintro rfl
    exact hne rfl
  · rintro h ⟨carried, hcarried, hne⟩
    exact hne (congrArg Version.mk (h carried hcarried))

theorem updateOutcome_blank (h : r.FirstBlank field) :
    updateOutcome r db = ⟨.error (.invalid ⟨r.kind, field⟩), db⟩ := by
  rw [updateOutcome, Record.blankIdentity?_of_firstBlank h]

theorem updateOutcome_missing (hnamed : r.IsNamed) (hrow : db.row? r.kind r.key = none) :
    updateOutcome r db = ⟨.error (.notFound r.kind r.key), db⟩ := by
  rw [updateOutcome, Record.blankIdentity?_eq_none_iff.mpr hnamed, Database.version?_of_no_row hrow]

theorem updateOutcome_outdated (hnamed : r.IsNamed) (hrow : db.row? r.kind r.key = some row)
    (hout : ¬ IsCurrent r row) :
    updateOutcome r db = ⟨.error (.concurrentModification r.kind r.key), db⟩ := by
  have hoverdue : isOutdated r ⟨row.version⟩ = true := by
    rwa [← isOutdated_eq_false_iff, Bool.not_eq_false] at hout
  rw [updateOutcome, Record.blankIdentity?_eq_none_iff.mpr hnamed, Database.version?_of_row? hrow]
  simp only [if_pos hoverdue]

theorem updateOutcome_current (hnamed : r.IsNamed) (hrow : db.row? r.kind r.key = some row)
    (hcurrent : IsCurrent r row) :
    updateOutcome r db
      = ⟨.ok (.version ⟨row.version + 1⟩), db.put r.kind r.key ⟨row.version + 1, Records.payload r⟩⟩ := by
  have hfresh := isOutdated_eq_false_iff.mpr hcurrent
  rw [updateOutcome, Record.blankIdentity?_eq_none_iff.mpr hnamed, Database.version?_of_row? hrow]
  simp only [hfresh, Bool.false_eq_true, if_false]

/-- The four things that can come of an update. -/
inductive UpdateCase (r : Record) (db : Database) : Outcome CallError Answer → Prop
  | blank {field : String} (h : r.FirstBlank field) :
      UpdateCase r db ⟨.error (.invalid ⟨r.kind, field⟩), db⟩
  | missing (hnamed : r.IsNamed) (hrow : db.row? r.kind r.key = none) :
      UpdateCase r db ⟨.error (.notFound r.kind r.key), db⟩
  | outdated {row : Row} (hnamed : r.IsNamed) (hrow : db.row? r.kind r.key = some row)
      (hout : ¬ IsCurrent r row) :
      UpdateCase r db ⟨.error (.concurrentModification r.kind r.key), db⟩
  | done {row : Row} (hnamed : r.IsNamed) (hrow : db.row? r.kind r.key = some row)
      (hcurrent : IsCurrent r row) :
      UpdateCase r db ⟨.ok (.version ⟨row.version + 1⟩),
        db.put r.kind r.key ⟨row.version + 1, Records.payload r⟩⟩

theorem updateCase (r : Record) (db : Database) : UpdateCase r db (updateOutcome r db) := by
  rcases r.isNamed_or_firstBlank with hnamed | ⟨field, hblank⟩
  · cases hrow : db.row? r.kind r.key with
    | none =>
        rw [updateOutcome_missing hnamed hrow]
        exact .missing hnamed hrow
    | some row =>
        by_cases hcurrent : IsCurrent r row
        · rw [updateOutcome_current hnamed hrow hcurrent]
          exact .done hnamed hrow hcurrent
        · rw [updateOutcome_outdated hnamed hrow hcurrent]
          exact .outdated hnamed hrow hcurrent
  · rw [updateOutcome_blank hblank]
    exact .blank hblank

/-- On free terms an update does what is to be expected of it, whatever the row holds. -/
theorem effect_update (r : Record) (plain : r.kind ≠ .user) (hm : db.IsMigrated)
    (hv : ∀ v, db.version? r.kind r.key = some v → 1 ≤ v) :
    (update r plain).program.effect .free db = updateOutcome r db := by
  rw [program, Program.effect_bind, effect_updateRecord, updateOutcome, hm.readFault?_free,
    hm.writeFault?_free]
  cases r.blankIdentity? with
  | some blank => rfl
  | none =>
      cases hrow : db.row? r.kind r.key with
      | none =>
          rw [Database.version?_of_no_row hrow]
          rfl
      | some row =>
          have hversion := Database.version?_of_row? hrow
          have hpos := hv row.version hversion
          have hnext : ¬ row.version + 1 ≤ 0 := by omega
          rw [hversion]
          by_cases hout : isOutdated r ⟨row.version⟩
          · simp only [if_pos hout]
            rfl
          · simp only [if_neg hout, if_neg hnext]
            rfl

/-- What an update of the record answers where the database holds this, each answer with its condition. -/
structure UpdateAnswer (r : Record) (db : Database) (result : Except CallError Answer) : Prop where
  /-- The record is invalid exactly if an identifying field is blank. -/
  blank : (∃ blank, result = .error (.invalid blank)) ↔ ∃ f ∈ r.identity, Text.isBlankText f.2 = true
  /-- The field that is told is the first blank one. -/
  invalid : ∀ field, result = .error (.invalid ⟨r.kind, field⟩) ↔ r.FirstBlank field
  /-- Of a mapping the user is looked at before the source. -/
  userFirst : ∀ m, r = .mapping m → Text.isBlankText m.userId = true →
    result = .error (.invalid ⟨.mapping, "userId"⟩)
  /-- Otherwise it is missing exactly if there is no row of its key. -/
  missing : result = .error (.notFound r.kind r.key) ↔ r.IsNamed ∧ db.row? r.kind r.key = none
  /-- Otherwise it was modified in the meantime exactly if it carries a version that is not the row's. -/
  outdated : result = .error (.concurrentModification r.kind r.key) ↔
    r.IsNamed ∧ ∃ row, db.row? r.kind r.key = some row ∧
      ∃ carried, r.version = some carried ∧ carried.number ≠ row.version
  /-- Otherwise, and so always if it carries no version or the row's, it is written. -/
  done : ∀ answer, result = .ok answer ↔
    r.IsNamed ∧ ∃ row, db.row? r.kind r.key = some row ∧ IsCurrent r row ∧
      answer = .version ⟨row.version + 1⟩
  /-- An update fails in no other way. -/
  failures : ∀ e, result = .error e →
    (∃ field, e = .invalid ⟨r.kind, field⟩) ∨ e = .notFound r.kind r.key ∨
      e = .concurrentModification r.kind r.key

theorem not_isCurrent_iff : ¬ IsCurrent r row ↔
    ∃ carried, r.version = some carried ∧ carried.number ≠ row.version := by
  simp only [IsCurrent, Classical.not_forall, exists_prop]

theorem updateAnswer_of_firstBlank (h : r.FirstBlank field) :
    UpdateAnswer r db (.error (.invalid ⟨r.kind, field⟩)) := by
  have hnot : ¬ r.IsNamed := h.not_isNamed
  refine ⟨⟨fun _ => ?_, fun _ => ⟨_, rfl⟩⟩, ?_, ?_, by simp [hnot], by simp [hnot], by simp [hnot], ?_⟩
  · obtain ⟨before, value, rest, hidentity, hblank, -⟩ := h
    exact ⟨(field, value), by simp [hidentity], hblank⟩
  · intro other
    constructor
    · intro hother
      have hfield : field = other := by simpa using hother
      rwa [← hfield]
    · intro hother
      rw [h.unique hother]
  · rintro m rfl huser
    have hfirst : (Record.mapping m).FirstBlank "userId" :=
      ⟨[], m.userId, [("source", m.source)], rfl, huser, by simp⟩
    rw [h.unique hfirst]
    rfl
  · rintro e he
    exact .inl ⟨field, (Except.error.inj he).symm⟩

/-- What a named record is answered has nothing to do with blank fields. -/
theorem updateAnswer_of_isNamed {result : Except CallError Answer} (hnamed : r.IsNamed)
    (hvalid : ∀ blank, result ≠ .error (.invalid blank))
    (missing : result = .error (.notFound r.kind r.key) ↔ db.row? r.kind r.key = none)
    (outdated : result = .error (.concurrentModification r.kind r.key) ↔
      ∃ row, db.row? r.kind r.key = some row ∧ ¬ IsCurrent r row)
    (done : ∀ answer, result = .ok answer ↔ ∃ row, db.row? r.kind r.key = some row ∧
      IsCurrent r row ∧ answer = .version ⟨row.version + 1⟩)
    (failures : ∀ e, result = .error e → e = .notFound r.kind r.key ∨
      e = .concurrentModification r.kind r.key) : UpdateAnswer r db result := by
  refine ⟨⟨?_, ?_⟩, fun field => ⟨?_, ?_⟩, ?_, ?_, ?_, ?_, fun e he => .inr (failures e he)⟩
  · rintro ⟨blank, hblank⟩
    exact absurd hblank (hvalid blank)
  · rintro ⟨f, hf, hblank⟩
    rw [hnamed f hf] at hblank
    cases hblank
  · intro hblank
    exact absurd hblank (hvalid _)
  · intro hblank
    exact absurd hnamed hblank.not_isNamed
  · rintro m rfl huser
    have huser' : Text.isBlankText m.userId = false := hnamed ("userId", m.userId) List.mem_cons_self
    rw [huser'] at huser
    cases huser
  · rw [missing]
    exact (and_iff_right hnamed).symm
  · rw [outdated]
    simp only [hnamed, true_and, not_isCurrent_iff]
  · intro answer
    rw [done]
    exact (and_iff_right hnamed).symm

/-- An update that fails leaves the database as it was. -/
theorem updateOutcome_error {e : CallError} (he : (updateOutcome r db).result = .error e) :
    (updateOutcome r db).database = db := by
  have hcase := updateCase r db
  generalize updateOutcome r db = outcome at hcase he ⊢
  cases hcase with
  | blank _ => rfl
  | missing _ _ => rfl
  | outdated _ _ _ => rfl
  | done _ _ _ => cases he

/-- What is to be expected of an update is answered under just these conditions. -/
theorem updateAnswer (r : Record) (db : Database) : UpdateAnswer r db (updateOutcome r db).result := by
  have hcase := updateCase r db
  generalize updateOutcome r db = outcome at hcase ⊢
  cases hcase with
  | blank hblank => exact updateAnswer_of_firstBlank hblank
  | missing hnamed hrow =>
      exact updateAnswer_of_isNamed hnamed (by simp) (by simp [hrow]) (by simp [hrow])
        (by simp [hrow]) (by simp)
  | outdated hnamed hrow hout =>
      exact updateAnswer_of_isNamed hnamed (by simp) (by simp [hrow]) (by simp [hrow, hout])
        (by simp [hrow, hout]) (by simp)
  | done hnamed hrow hcurrent =>
      exact updateAnswer_of_isNamed hnamed (by simp) (by simp [hrow]) (by simp [hrow, hcurrent])
        (by simp [hrow, hcurrent, eq_comm]) (by simp)

end Call

/-! ### The result -/

namespace Service

variable {h h' : Host} {link : Option Link} {w : Terms} {db : Database} {r : Record}

/-- A store that connects to the content, and is not kept from reading, gets the record of a row that was
put there for it. -/
theorem get_of_row? {n : Int} (hopen : h.service.gate.isOpen) (hc : Connects h link w db)
    (hbar : w.bar = none) (htable : (db.table? r.kind).isSome) (hn : 1 ≤ n)
    (hrow : db.row? r.kind r.key = some ⟨n, Records.payload r⟩) :
    ∃ h', call (.get r.kind r.key) h = .ok (.record (some (r.withVersion (some ⟨n⟩)))) h' := by
  have hread : w.readFault? db r.kind = none := by
    rw [Terms.readFault?, hbar, if_pos htable]
  have heffect : (Call.get r.kind r.key).program.effect w db
      = ⟨.ok (.record (some (r.withVersion (some ⟨n⟩)))), db⟩ :=
    Program.bind_pure_ok.mpr ⟨_, Call.records_ok.mpr (Records.read_of_row? hn hread hrow), rfl⟩
  obtain ⟨h', hcall, -⟩ := call_effect (.get r.kind r.key) hc hopen
  rw [heffect] at hcall
  exact ⟨h', hcall⟩

/-- Who connects now and is not kept from reading gets the record at this version. -/
def Readable (h : Host) (link : Option Link) (r : Record) (v : Version) : Prop :=
  ∀ reader link' w, reader.service.gate.isOpen → w.bar = none →
    Connects reader link' w (content h link) →
      ∃ h', call (.get r.kind r.key) reader = .ok (.record (some (r.withVersion (some v)))) h'

/-- **What an update of a role, a privilege or a mapping answers and leaves.**  Of a started store whose
connection nothing is in the way of, each answer is given under just its conditions.  What fails changes
nothing.  What succeeds puts the record in the place of the row, at the version that was answered, and
from then on exactly this record is got, by whoever connects and by the store itself: a row that could
not be read is mended. -/
theorem record_updates (hopen : h.service.gate.isOpen) (hc : Connects h link .free db)
    (hm : db.IsMigrated) (r : Record) (plain : r.kind ≠ .user)
    (hv : ∀ v, db.version? r.kind r.key = some v → 1 ≤ v) :
    ∃ result h', call (.update r plain) h = ended result h' ∧ Call.UpdateAnswer r db result ∧
      (∀ e, result = .error e → content h' link = db) ∧
      ∀ v, result = .ok (.version v) →
        content h' link = db.put r.kind r.key ⟨v.number, Records.payload r⟩ ∧
        Readable h' link r v ∧
        (LeadsStraight h link →
          ∃ h'', call (.get r.kind r.key) h' = .ok (.record (some (r.withVersion (some v)))) h'') := by
  obtain ⟨h', hcall, hcontent⟩ := call_effect (.update r plain) hc hopen
  rw [Call.effect_update r plain hm hv] at hcall hcontent
  have hanswer := Call.updateAnswer r db
  refine ⟨_, h', hcall, hanswer, ?_, ?_⟩
  · intro e he
    rw [hcontent]
    exact Call.updateOutcome_error he
  · intro v hok
    obtain ⟨hnamed, row, hrow, hcurrent, hversion⟩ := (hanswer.done _).mp hok
    obtain rfl : v = ⟨row.version + 1⟩ := Answer.version.inj hversion
    have hput : content h' link = db.put r.kind r.key ⟨row.version + 1, Records.payload r⟩ := by
      rw [hcontent, Call.updateOutcome_current hnamed hrow hcurrent]
    have hpos : 1 ≤ row.version := hv row.version (Database.version?_of_row? hrow)
    obtain ⟨t, ht⟩ := Option.isSome_iff_exists.mp (hm.tables r.kind)
    have hthere : (content h' link).row? r.kind r.key = some ⟨row.version + 1, Records.payload r⟩ := by
      rw [hput]
      exact Database.row?_put_self ht _ _
    have htable : ((content h' link).table? r.kind).isSome := by
      rw [hput, Database.isSome_table?_put]
      exact hm.tables r.kind
    have hreadable : Readable h' link r ⟨row.version + 1⟩ := by
      intro reader link' w hgate hbar hconnects
      exact get_of_row? hgate hconnects hbar htable (by omega) hthere
    refine ⟨hput, hreadable, fun hstraight => ?_⟩
    -- The store itself connects again to what it has left.
    have hagain := connects_again hc hm (reconnects_of_straight hc hm hstraight (.update r plain))
    have hgate := gate_after_call h (.update r plain)
    rw [Host.after, hcall, leftBy_ended] at hagain hgate
    exact hreadable h' link .free (by rw [hgate, hopen]) rfl hagain

/-- A database with a mapping that nobody can read. -/
def withScribble : Database :=
  Database.migrated.put .mapping ["bob", "ldap"] ⟨5, "scribble"⟩

/-- The mapping that nobody can read is updated by who does not know its version, and can be read again. -/
theorem record_updates_of_scribble :
    (∃ damage h', call (.get .mapping ["bob", "ldap"]) (Database.startedOn withScribble)
        = .error (.store (.damaged damage)) h') ∧
    ∃ h' h'', call (.update (.mapping (.new "bob" "ldap" (.ofList ["dev"]))) (by decide))
        (Database.startedOn withScribble) = .ok (.version ⟨6⟩) h' ∧
      call (.get .mapping ["bob", "ldap"]) h'
        = .ok (.record (some (.mapping { Mapping.new "bob" "ldap" (.ofList ["dev"]) with
            version := some ⟨6⟩ }))) h'' := by
  have hm : withScribble.IsMigrated := by
    refine ⟨rfl, ?_, rfl⟩
    intro kind
    cases kind <;> rfl
  have hversion : withScribble.version? .mapping ["bob", "ldap"] = some 5 := by
    rw [withScribble, Database.version?_put rfl, if_pos ⟨rfl, rfl⟩]
  have hc : Connects (Database.startedOn withScribble) none .free withScribble := connects_memory rfl
  refine ⟨⟨_, _, rfl⟩, ?_⟩
  obtain ⟨result, h', hcall, hanswer, -, hwritten⟩ :=
    record_updates rfl hc hm (.mapping (.new "bob" "ldap" (.ofList ["dev"]))) (by decide) (by
      intro v hv
      cases hversion.symm.trans hv
      decide)
  obtain ⟨payload, hrow⟩ := Database.row?_of_version? hversion
  have hok : result = .ok (.version ⟨6⟩) :=
    (hanswer.done _).mpr ⟨Record.blankIdentity?_eq_none_iff.mp (by decide), _, hrow,
      by simp [Call.IsCurrent, Record.version, Mapping.new], rfl⟩
  obtain ⟨h'', hget⟩ := (hwritten ⟨6⟩ hok).2.2 trivial
  rw [hok] at hcall
  exact ⟨h', h'', hcall, hget⟩

end Service

end AccessStore
