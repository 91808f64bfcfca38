/-
Listing the records of a kind, and reading them one by one.

Both look into rows, and a row can hold anything: what is no record, a record of a version that there is
not, or a record of another key.  Reading a key refuses all of these.  Listing refuses the first two and
passes over the third: it never compares the record with the key that it found it under.  That is the
only difference, `Records.listing`: a table is listed as it is read exactly if the records that are
listed name the keys of their rows.
-/
import AccessStore.Proofs.OctetOrder
import AccessStore.Proofs.Records

namespace AccessStore

/-! ### Rows -/

namespace Database

variable {db : Database} {kind : Kind} {key : Key} {r : Record}

/-- The keys of the rows of a kind, in order. -/
def keys (db : Database) (kind : Kind) : List Key := (db.rows kind).keys

/-- The row of a key holds a record, whatever key the record names. -/
def Holds (db : Database) (kind : Kind) (key : Key) (r : Record) : Prop :=
  ∃ row, db.row? kind key = some row ∧ Records.ofRow kind row = .ok r

theorem row?_eq_get?_rows (db : Database) (kind : Kind) (key : Key) :
    db.row? kind key = (db.rows kind).get? key := by
  rw [row?, rows]
  cases db.table? kind <;> rfl

theorem mem_entries_iff {row : Row} :
    (key, row) ∈ (db.rows kind).entries ↔ db.row? kind key = some row := by
  rw [row?_eq_get?_rows]
  exact ⟨SortedMap.get?_of_mem_entries, SortedMap.mem_entries_of_get?⟩

theorem mem_keys_iff : key ∈ db.keys kind ↔ ∃ row, db.row? kind key = some row := by
  simp only [keys, SortedMap.keys, List.mem_map, Prod.exists, exists_and_right, exists_eq_right,
    mem_entries_iff]

/-- The keys are in order, also by their octets. -/
theorem keys_ascending (db : Database) (kind : Kind) :
    (db.keys kind).Pairwise fun k l => compare k l = .lt ∧ compare k.octets l.octets = .lt := by
  simp only [Key.compare_octets, and_self]
  exact List.pairwise_map.mpr (db.rows kind).ascending

end Database

/-! ### Listing and reading -/

namespace Records

variable {w : Terms} {db : Database} {kind : Kind} {key : Key} {r : Record}

/-- What listing a kind answers. -/
def listed (w : Terms) (db : Database) (kind : Kind) : Except StoreError (List Record) :=
  ((browse kind).effect w db).result

/-- What reading a key answers. -/
def served (w : Terms) (db : Database) (kind : Kind) (key : Key) : Except StoreError (Option Record) :=
  ((read kind key).effect w db).result

/-- Reading serves the record of a row that names the row's key. -/
theorem inRow_some_iff {row? : Option Row} : inRow kind key row? = .ok (some r) ↔
    (∃ row, row? = some row ∧ ofRow kind row = .ok r) ∧ r.key = key := by
  cases row? with
  | none => simp [inRow]
  | some row =>
      cases hrow : ofRow kind row with
      | error e => simp [inRow, hrow]
      | ok r' =>
          by_cases hkey : r'.key = key
          · simp only [inRow, hrow, if_pos hkey, Except.ok.injEq, Option.some.injEq, exists_eq_left']
            exact ⟨fun h => ⟨h, h ▸ hkey⟩, And.left⟩
          · simp only [inRow, hrow, if_neg hkey, Except.ok.injEq, Option.some.injEq, exists_eq_left',
              reduceCtorEq, false_iff, not_and]
            intro h
            exact h ▸ hkey

/-- It finds nothing only where there is no row. -/
theorem inRow_none_iff {row? : Option Row} : inRow kind key row? = .ok none ↔ row? = none := by
  cases row? with
  | none => simp [inRow]
  | some row =>
      cases hrow : ofRow kind row with
      | error e => simp [inRow, hrow]
      | ok r =>
          by_cases hkey : r.key = key <;> simp [inRow, hrow, hkey]

/-- A record of another key is refused. -/
theorem inRow_foreign {row : Row} (hrow : ofRow kind row = .ok r) (hkey : r.key ≠ key) :
    inRow kind key (some row) = .error (.damaged (.foreignKey kind key r.key)) := by
  rw [inRow, hrow]
  exact if_neg hkey

/-- What is in a row that is no record is refused as it is. -/
theorem inRow_error {row : Row} {e : StoreError} (hrow : ofRow kind row = .error e) :
    inRow kind key (some row) = .error e := by
  rw [inRow, hrow]

/-- The record in the row of an entry. -/
theorem ofRow_iff_holds {entry : Key × Row} (h : entry ∈ (db.rows kind).entries) :
    ofRow kind entry.2 = .ok r ↔ db.Holds kind entry.1 r := by
  have hrow : db.row? kind entry.1 = some entry.2 := Database.mem_entries_iff.mp h
  constructor
  · intro hr
    exact ⟨entry.2, hrow, hr⟩
  · rintro ⟨row, hrow', hr⟩
    obtain rfl := Option.some.inj (hrow.symm.trans hrow')
    exact hr

section Readable

variable (hread : w.readFault? db kind = none)
include hread

theorem served_eq (key : Key) : served w db kind key = inRow kind key (db.row? kind key) := by
  rw [served, effect_read, hread]

theorem served_none_iff : served w db kind key = .ok none ↔ key ∉ db.keys kind := by
  rw [served_eq hread, inRow_none_iff, Database.mem_keys_iff]
  simp [Option.eq_none_iff_forall_not_mem]

theorem served_some_iff : served w db kind key = .ok (some r) ↔ db.Holds kind key r ∧ r.key = key := by
  rw [served_eq hread, inRow_some_iff]
  rfl

theorem served_foreign (h : db.Holds kind key r) (hkey : r.key ≠ key) :
    served w db kind key = .error (.damaged (.foreignKey kind key r.key)) := by
  obtain ⟨row, hrow, hr⟩ := h
  rw [served_eq hread, hrow]
  exact inRow_foreign hr hkey

theorem listed_eq :
    listed w db kind = (db.rows kind).entries.mapM fun entry => ofRow kind entry.2 := by
  rw [listed, effect_browse, hread]

/-- **A listing has the records in the rows, whatever keys they name.** -/
theorem listed_ok_iff {list : List Record} :
    listed w db kind = .ok list ↔ List.Forall₂ (db.Holds kind) (db.keys kind) list := by
  rw [listed_eq hread, mapM_eq_ok, Database.keys, SortedMap.keys, List.forall₂_map_left_iff,
    List.forall₂_iff_zip, List.forall₂_iff_zip]
  refine and_congr_right fun _ => ⟨?_, ?_⟩
  · intro h entry r hmem
    exact (ofRow_iff_holds (List.of_mem_zip hmem).1).mp (h hmem)
  · intro h entry r hmem
    exact (ofRow_iff_holds (List.of_mem_zip hmem).1).mpr (h hmem)

/-- It fails as reading does of the first key whose row holds no record. -/
theorem listed_error_iff {e : StoreError} : listed w db kind = .error e ↔
    ∃ before key after, db.keys kind = before ++ key :: after ∧
      (∀ k ∈ before, ∃ r, db.Holds kind k r) ∧ (∀ r, ¬ db.Holds kind key r) ∧
      served w db kind key = .error e := by
  rw [listed_eq hread, mapM_eq_error, Database.keys, SortedMap.keys]
  constructor
  · rintro ⟨before, entry, after, hentries, hbefore, he⟩
    have hmem : entry ∈ (db.rows kind).entries := by simp [hentries]
    refine ⟨before.map (·.1), entry.1, after.map (·.1), by simp [hentries], ?_, ?_, ?_⟩
    · intro k hk
      obtain ⟨other, hother, rfl⟩ := List.mem_map.mp hk
      obtain ⟨r, hr⟩ := hbefore other hother
      exact ⟨r, (ofRow_iff_holds (by simp [hentries, hother])).mp hr⟩
    · intro r hr
      rw [← ofRow_iff_holds hmem, he] at hr
      cases hr
    · rw [served_eq hread, Database.mem_entries_iff.mp hmem, inRow_error he]
  · rintro ⟨before, key, after, hkeys, hbefore, hnone, he⟩
    obtain ⟨entriesBefore, rest, hentries, rfl, hrest⟩ := List.map_eq_append_iff.mp hkeys
    obtain ⟨entry, entriesAfter, rfl, rfl, rfl⟩ := List.map_eq_cons_iff.mp hrest
    have hmem : entry ∈ (db.rows kind).entries := by simp [hentries]
    refine ⟨entriesBefore, entry, entriesAfter, hentries, ?_, ?_⟩
    · intro other hother
      obtain ⟨r, hr⟩ := hbefore other.1 (List.mem_map_of_mem hother)
      exact ⟨r, (ofRow_iff_holds (by simp [hentries, hother])).mpr hr⟩
    · rw [served_eq hread, Database.mem_entries_iff.mp hmem] at he
      cases hr : ofRow kind entry.2 with
      | ok r => exact absurd ((ofRow_iff_holds hmem).mp hr) (hnone r)
      | error e' =>
          rw [inRow_error hr] at he
          exact congrArg Except.error (Except.error.inj he)

end Readable

/-! ### The result -/

/-- A kind is listed as it is read, key by key. -/
structure Agree (w : Terms) (db : Database) (kind : Kind) : Prop where
  /-- Listing succeeds if reading the key of every row does. -/
  succeeds : (∃ list, listed w db kind = .ok list) ↔
    ∀ key ∈ db.keys kind, ∃ found, served w db kind key = .ok found
  /-- What is listed is what is read, in the order of the keys. -/
  same : ∀ list, listed w db kind = .ok list →
    List.Forall₂ (fun key r => served w db kind key = .ok (some r)) (db.keys kind) list
  /-- Where reading tells of damage, so does listing. -/
  damaged : ∀ key ∈ db.keys kind, ∀ damage, served w db kind key = .error (.damaged damage) →
    ∃ other, listed w db kind = .error (.damaged other)

/-- How a kind is listed, whatever its rows hold. -/
structure Listing (w : Terms) (db : Database) (kind : Kind) : Prop where
  /-- The rows are looked at in the order of their keys, which is that of their octets. -/
  ascending : (db.keys kind).Pairwise fun k l => compare k l = .lt ∧ compare k.octets l.octets = .lt
  /-- Reading finds nothing under any other key. -/
  absent : ∀ key, served w db kind key = .ok none ↔ key ∉ db.keys kind
  /-- Reading serves the record in a row if it names the row's key. -/
  own : ∀ key r, served w db kind key = .ok (some r) ↔ db.Holds kind key r ∧ r.key = key
  /-- Reading refuses a record of another key. -/
  foreign : ∀ key r, db.Holds kind key r → r.key ≠ key →
    served w db kind key = .error (.damaged (.foreignKey kind key r.key))
  /-- Listing does not ask what keys the records name. -/
  listed : ∀ list, listed w db kind = .ok list ↔ List.Forall₂ (db.Holds kind) (db.keys kind) list
  /-- It fails as reading does of the first row that holds no record at all. -/
  refused : ∀ e, Records.listed w db kind = .error e ↔
    ∃ before key after, db.keys kind = before ++ key :: after ∧
      (∀ k ∈ before, ∃ r, db.Holds kind k r) ∧ (∀ r, ¬ db.Holds kind key r) ∧
      served w db kind key = .error e
  /-- So it agrees with reading exactly if no record is listed that names another key than its row's. -/
  agree : Agree w db kind ↔
    ∀ list, Records.listed w db kind = .ok list → list.map Record.key = db.keys kind

/-- The listed records name the keys of their rows. -/
theorem map_key_eq_iff {keys : List Key} {list : List Record} :
    list.map Record.key = keys ↔ List.Forall₂ (fun key r => r.key = key) keys list := by
  constructor
  · rintro rfl
    rw [List.forall₂_map_left_iff, List.forall₂_same]
    intro r _
    rfl
  · intro h
    induction h with
    | nil => rfl
    | cons hkey _ ih => rw [List.map_cons, hkey, ih]

section Agreement

variable (hread : w.readFault? db kind = none)
include hread

theorem forall₂_served_iff {list : List Record} :
    List.Forall₂ (fun key r => served w db kind key = .ok (some r)) (db.keys kind) list ↔
      listed w db kind = .ok list ∧ list.map Record.key = db.keys kind := by
  simp only [served_some_iff hread, listed_ok_iff hread, map_key_eq_iff]
  constructor
  · intro h
    exact ⟨h.imp fun _ _ => And.left, h.imp fun _ _ => And.right⟩
  · rintro ⟨hholds, hnamed⟩
    exact hholds.mp (fun _ _ => And.intro) hnamed

/-- Where every key is read, the whole kind is listed. -/
theorem exists_listed (h : ∀ key ∈ db.keys kind, ∃ found, served w db kind key = .ok found) :
    ∃ list, listed w db kind = .ok list := by
  cases hlisted : listed w db kind with
  | ok list => exact ⟨list, rfl⟩
  | error e =>
      obtain ⟨before, key, after, hkeys, -, -, he⟩ := (listed_error_iff hread).mp hlisted
      obtain ⟨found, hfound⟩ := h key (by simp [hkeys])
      rw [he] at hfound
      cases hfound

/-- A listing that fails tells of damage. -/
theorem damaged_of_listed {e : StoreError} (h : listed w db kind = .error e) :
    ∃ damage, e = .damaged damage := by
  rw [listed_eq hread] at h
  exact damaged_of_rows h

theorem agree_iff : Agree w db kind ↔
    ∀ list, listed w db kind = .ok list → list.map Record.key = db.keys kind := by
  constructor
  · intro h list hlist
    exact ((forall₂_served_iff hread).mp (h.same list hlist)).2
  · intro h
    have hserved {list : List Record} (hlist : listed w db kind = .ok list) :
        List.Forall₂ (fun key r => served w db kind key = .ok (some r)) (db.keys kind) list :=
      (forall₂_served_iff hread).mpr ⟨hlist, h list hlist⟩
    refine ⟨⟨?_, exists_listed hread⟩, fun list => hserved, ?_⟩
    · rintro ⟨list, hlist⟩ key hkey
      obtain ⟨r, hr⟩ := exists_of_forall₂ (hserved hlist) hkey
      exact ⟨some r, hr⟩
    · intro key hkey damage hdamage
      cases hlisted : listed w db kind with
      | ok list =>
          obtain ⟨r, hr⟩ := exists_of_forall₂ (hserved hlisted) hkey
          rw [hdamage] at hr
          cases hr
      | error e =>
          obtain ⟨other, rfl⟩ := damaged_of_listed hread hlisted
          exact ⟨other, rfl⟩

/-- **How listing a kind compares to reading it.**  Both look at the same rows, and differ only over records
that name other keys than their rows': reading refuses them, and they are listed all the same. -/
theorem listing : Listing w db kind where
  ascending := db.keys_ascending kind
  absent _ := served_none_iff hread
  own _ _ := served_some_iff hread
  foreign _ _ := served_foreign hread
  listed _ := listed_ok_iff hread
  refused _ := listed_error_iff hread
  agree := agree_iff hread

end Agreement

/-- A database with a role in the row of another one. -/
def withStrayRole : Database := Database.migrated.put .role ["broken"] ⟨1, "\x7b\"id\":\"Broken\"\x7d"⟩

theorem holds_strayRole :
    withStrayRole.Holds .role ["broken"] (.role { id := "Broken", version := some ⟨1⟩ }) :=
  ⟨_, rfl, rfl⟩

/-- The role is listed, and not read under the key of its row. -/
theorem listing_of_strayRole :
    listed .free withStrayRole .role = .ok [.role { id := "Broken", version := some ⟨1⟩ }] ∧
    served .free withStrayRole .role ["broken"]
      = .error (.damaged (.foreignKey .role ["broken"] ["Broken"])) := by
  have hlisting : Listing .free withStrayRole .role := listing rfl
  refine ⟨(hlisting.listed _).mpr ?_, hlisting.foreign _ _ holds_strayRole (by decide)⟩
  exact .cons holds_strayRole .nil

/-- **Not every table is listed as it is read.** -/
theorem stray_role_is_listed :
    ¬ ∀ w db kind, Terms.readFault? w db kind = none → Agree w db kind := by
  intro hagree
  have hlisted : listed .free withStrayRole .role
      = .ok [.role { id := "Broken", version := some ⟨1⟩ }] :=
    (listed_ok_iff rfl).mpr (.cons holds_strayRole .nil)
  have hkeys := (agree_iff rfl).mp (hagree .free withStrayRole .role rfl) _ hlisted
  revert hkeys
  decide

end Records

end AccessStore
