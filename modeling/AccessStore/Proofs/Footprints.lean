/-
What calls leave alone.

Roles name privileges and other roles, and mappings name users and roles, but no call ever
follows such a name: removing a role leaves every record that mentions it as it is.  What a
call may change is known beforehand from the call alone, `Call.changes`, and all that is left
to show is that two contents that agree outside of some spots agree as far as anybody can
tell.  That is `Database.SameOutside`; where there are no spots it is equality.

Nothing is asked of the content, neither sound rows nor any tables at all, nor of the terms on
which the store connects.
-/
import AccessStore.Proofs.Connections
import AccessStore.Proofs.Frames

namespace AccessStore

/-! ### Contents that agree -/

namespace Database

variable {db db' : Database} {spots : Kind → Key → Prop} {kind : Kind} {key : Key}

/-- Two contents differ at most in the rows at these spots. -/
structure SameOutside (spots : Kind → Key → Prop) (db db' : Database) : Prop
    extends db.SameFrame db' where
  rows : ∀ kind key, ¬ spots kind key → db'.row? kind key = db.row? kind key

theorem row?_of_no_table (h : (db.table? kind).isSome = false) : db.row? kind key = none := by
  have hnone : db.table? kind = none := by simpa using h
  rw [row?, hnone]
  rfl

/-- Contents with the same frame and the same rows are the same. -/
theorem SameFrame.eq_of_rows (h : db.SameFrame db')
    (hrows : ∀ kind key, db'.row? kind key = db.row? kind key) : db' = db := by
  have htables : db'.tables = db.tables :=
    PerKind.ext_get fun kind => table?_eq_of_rows (h.tables kind) (hrows kind)
  obtain ⟨version, tables, markers⟩ := db
  obtain ⟨version', tables', markers'⟩ := db'
  obtain rfl : version' = version := h.schemaVersion
  obtain rfl : markers' = markers := h.markers
  obtain rfl : tables' = tables := htables
  rfl

/-- Where there are no spots nothing differs. -/
theorem SameOutside.eq (h : db.SameOutside spots db') (hnone : ∀ kind key, ¬ spots kind key) :
    db' = db :=
  h.toSameFrame.eq_of_rows fun kind key => h.rows kind key (hnone kind key)

theorem SameOutside.of_edited (h : Edited spots db db') : db.SameOutside spots db' :=
  ⟨.of_edited h, fun _ _ hspot => h.row?_eq hspot⟩

/-- There are no rows to put in a database without tables. -/
theorem blank_of_edited (h : Edited spots .blank db') : db' = .blank := by
  have hframe := SameFrame.of_edited h
  refine hframe.eq_of_rows fun kind key => ?_
  have hnone : (blank.table? kind).isSome = false := by cases kind <;> rfl
  rw [row?_of_no_table hnone, row?_of_no_table (by rw [hframe.tables, hnone])]

end Database

/-! ### Counting -/

namespace Records

theorem plain_count (kind : Kind) : (count kind).Plain :=
  Program.plain_bind (plain_statement (Action.plain_table kind)) fun _ => Program.plain_pure _

theorem count_database (kind : Kind) (w : Terms) (db : Database) :
    ((count kind).effect w db).database = db := by
  rw [count, Program.effect_bind, effect_statement, Action.effect_table]
  cases w.readFault? db kind <;> rfl

end Records

namespace Call

/-- No spots. -/
def nowhere (_ : Kind) (_ : Key) : Prop := False

theorem plain_countAll : countAll.Plain := by
  have hcount (kind : Kind) : (records (Records.count kind)).Plain :=
    plain_records (Records.plain_count kind)
  refine Program.plain_bind (hcount .user) fun _ => ?_
  refine Program.plain_bind (hcount .role) fun _ => ?_
  refine Program.plain_bind (hcount .privilege) fun _ => ?_
  exact Program.plain_bind (hcount .mapping) fun _ => Program.plain_pure _

theorem edited_countAll (w : Terms) (db : Database) :
    Edited nowhere db (countAll.effect w db).database := by
  have hcount (kind : Kind) (db : Database) :
      Edited nowhere db ((records (Records.count kind)).effect w db).database := by
    refine edited_records ?_
    rw [Records.count_database]
    exact .same
  rw [countAll, Program.effect_bind]
  refine (hcount .user db).andThen fun _ db => ?_
  rw [Program.effect_bind]
  refine (hcount .role db).andThen fun _ db => ?_
  rw [Program.effect_bind]
  refine (hcount .privilege db).andThen fun _ db => ?_
  exact edited_bind_pure (hcount .mapping db)

end Call

/-! ### Calls of a store -/

namespace Service

variable {h h' : Host} {link : Option Link} {w : Terms} {db : Database} {c : Call} {answer : Answer}

/-- A call has the effect of its program on the content, whatever that is. -/
theorem call_effect (c : Call) (hc : Connects h link w db) (hopen : h.service.gate.isOpen) :
    ∃ h', call c h = ended (c.program.effect w db).result h' ∧
      content h' link = (c.program.effect w db).database := by
  have htold : Connects (announced h c) link w db := hc.of_same rfl rfl
  rw [call_eq, if_pos hopen, ← Call.effect_run_program]
  refine work_of_connects_kept _ _ htold ?_
  rintro rfl
  rw [Call.effect_run_program]
  exact Database.blank_of_edited (Call.edited_program c w .blank)

/-- What a call that succeeded has done. -/
theorem effect_of_call_ok (hc : Connects h link w db) (hok : call c h = .ok answer h') :
    c.program.effect w db = ⟨.ok answer, content h' link⟩ := by
  by_cases hopen : h.service.gate.isOpen
  · obtain ⟨h'', hcall, hcontent⟩ := call_effect c hc hopen
    rw [hok] at hcall
    obtain ⟨hresult, rfl⟩ := ended_eq_ok.mp hcall.symm
    rw [hcontent, ← hresult]
  · rw [call_eq, if_neg hopen] at hok
    cases hok

/-- Counting changes nothing. -/
theorem content_of_counts {n : PerKind Nat} (hc : Connects h link w db) (hok : counts h = .ok n h') :
    content h' link = db := by
  have hcounts : counts h = if h.service.gate.isOpen then work CallError.ofStorage Call.countAll.run h
      else .error .notStarted h := by
    by_cases hopen : h.service.gate.isOpen <;> simp [counts, pass, bind, EStateM.bind, hopen]
  have hkept : (Call.countAll.run.effect w db).database = db := by
    rw [Call.plain_countAll.effect_run]
    exact (Database.SameOutside.of_edited (Call.edited_countAll w db)).eq fun _ _ hspot => hspot
  obtain ⟨h'', hwork, hcontent⟩ :=
    work_of_connects_kept CallError.ofStorage Call.countAll.run hc fun hblank => hkept.trans hblank
  rw [hcounts] at hok
  split at hok
  · rw [hwork] at hok
    obtain ⟨-, rfl⟩ := ended_eq_ok.mp hok
    rw [hcontent, hkept]
  · cases hok

end Service

/-! ### The result -/

/-- From one content to the other a call that succeeded has kept to its footprint. -/
structure Call.Confined (c : Call) (db db' : Database) : Prop where
  /-- Only rows at the spots of the call have changed; the schema, the markers and the tables are the
  same. -/
  outside : db.SameOutside c.changes db'
  /-- Looking changes nothing. -/
  looking : ∀ kind key, c = .browse kind ∨ c = .get kind key → db' = db
  /-- Removing a user who is not there changes nothing, whatever mapping there is. -/
  absent : ∀ id, c = .removeUser id → db.row? .user [id] = none → db' = db
  /-- Removing a user leaves the mappings under other sources. -/
  sources : ∀ id source, c = .removeUser id → source ≠ Mapping.defaultSource →
    db'.row? .mapping [id, source] = db.row? .mapping [id, source]
  /-- Removing a record leaves every other one, also those that name it. -/
  namers : ∀ kind key plain other k, c = .remove kind key plain → (other, k) ≠ (kind, key) →
    db'.row? other k = db.row? other k

/-- A user who is not there is not removed, and neither is the mapping. -/
theorem Call.removeUser_absent {id : String} {w : Terms} {db db' : Database} {answer : Answer}
    (habsent : db.row? .user [id] = none)
    (hok : (Call.removeUser id).program.effect w db = ⟨.ok answer, db'⟩) : db' = db := by
  obtain ⟨existed, hatomic, -⟩ := Program.bind_pure_ok.mp hok
  rcases removeUserWith_cases (Program.atomic_ok (plain_removeUserWith id) hatomic) with
    ⟨-, huser⟩ | ⟨-, db₁, huser, -⟩
  · rcases Records.delete_ok huser with ⟨hfalse, -⟩ | ⟨-, -, rfl⟩
    · cases hfalse
    · rfl
  · rcases Records.delete_ok huser with ⟨-, -, hthere, -⟩ | ⟨hfalse, -⟩
    · rw [habsent] at hthere
      cases hthere
    · cases hfalse

/-- **No call goes beyond its footprint.**  Whatever a database holds, a call that succeeds changes at
most the rows that its arguments name, and counting the records changes none. -/
theorem Service.confined_of_call {h : Host} {link : Option Link} {w : Terms} {db : Database}
    (hc : Connects h link w db) :
    (∀ c answer h', call c h = .ok answer h' → c.Confined db (content h' link)) ∧
      ∀ n h', counts h = .ok n h' → content h' link = db := by
  refine ⟨?_, fun n h' hok => content_of_counts hc hok⟩
  intro c answer h' hok
  have heffect := effect_of_call_ok hc hok
  have hedited := Call.edited_program c w db
  rw [heffect] at hedited
  have houtside := Database.SameOutside.of_edited hedited
  refine ⟨houtside, ?_, ?_, ?_, ?_⟩
  · rintro kind key (rfl | rfl)
    · exact houtside.eq fun _ _ hspot => hspot
    · exact houtside.eq fun _ _ hspot => hspot
  · rintro id rfl habsent
    exact Call.removeUser_absent habsent heffect
  · rintro id source rfl hsource
    refine houtside.rows .mapping [id, source] ?_
    simp [Call.changes, hsource]
  · rintro kind key plain other k rfl hne
    exact houtside.rows other k hne

/-- A started store in memory with a role, a mapping under another source that names it, and a mapping
without a user that nobody could read. -/
def Service.withNamers : Host where
  service :=
    { backing := .memory
        (((Database.migrated.put .role ["dev"] ⟨1, Records.payload (.role { id := "dev" })⟩).put .mapping
          ["ada", "ldap"] ⟨2, Records.payload (.mapping (.new "ada" "ldap" (.ofList ["dev"])))⟩).put
          .mapping ["bob", Mapping.defaultSource] ⟨-1, "{}"⟩)
      defaults := {}
      gate := .started }
  disk := { entries := .empty }

/-- The role is removed and the mapping goes on naming it; removing the user who is not there leaves the
other mapping. -/
theorem Service.confined_of_removals :
    (∃ h', call (.remove .role ["dev"] (by decide)) withNamers = .ok (.removed true) h' ∧
      (content h' none).row? .mapping ["ada", "ldap"]
        = some ⟨2, Records.payload (.mapping (.new "ada" "ldap" (.ofList ["dev"])))⟩) ∧
    ∃ h', call (.removeUser "bob") withNamers = .ok (.removed false) h' ∧
      content h' none = content withNamers none := by
  have hc : Connects withNamers none .free (content withNamers none) := connects_memory rfl
  have hconfined := (confined_of_call hc).1
  refine ⟨⟨_, rfl, ?_⟩, _, rfl, ?_⟩
  · exact (hconfined (.remove .role ["dev"] (by decide)) _ _ rfl).namers .role ["dev"] (by decide)
      .mapping ["ada", "ldap"] rfl (by decide)
  · exact (hconfined (.removeUser "bob") _ _ rfl).absent "bob" rfl rfl

end AccessStore
