/-
Rows of a database.

A statement that writes replaces a whole table, but what it means is that one row is put
or dropped.  `put` and `drop` say that, and `row?_put` and `row?_drop` are the frame laws
that everything else rests on: the row in question changes, and no other row of any kind
does.  Both leave a database alone that has no table of the kind; a statement is refused
there before it comes to that.
-/
import AccessStore.Database

namespace AccessStore

namespace Database

/-- The rows of a kind, none if there is no table of them. -/
def rows (db : Database) (kind : Kind) : Table := (db.table? kind).getD .empty

/-- Have this row under this key, if there is a table of the kind. -/
def put (db : Database) (kind : Kind) (key : Key) (row : Row) : Database :=
  match db.table? kind with
  | some t => db.setTable kind (t.insert key row)
  | none => db

/-- Have no row under this key. -/
def drop (db : Database) (kind : Kind) (key : Key) : Database :=
  match db.table? kind with
  | some t => db.setTable kind (t.erase key)
  | none => db

variable {db : Database} {kind : Kind} {t : Table}

theorem put_eq (h : db.table? kind = some t) (key : Key) (row : Row) :
    db.put kind key row = db.setTable kind (t.insert key row) := by
  simp [put, h]

theorem drop_eq (h : db.table? kind = some t) (key : Key) :
    db.drop kind key = db.setTable kind (t.erase key) := by
  simp [drop, h]

theorem row?_eq (h : db.table? kind = some t) (key : Key) : db.row? kind key = t.get? key := by
  simp [row?, h]

/-- Setting a table to what it is changes nothing. -/
theorem setTable_self (h : db.table? kind = some t) : db.setTable kind t = db := by
  have htables : db.tables.set kind (some t) = db.tables := by
    refine PerKind.ext_get fun other => ?_
    rw [PerKind.get_set]
    split
    · rename_i hother
      rw [hother]
      exact h.symm
    · rfl
  simp [setTable, htables]

@[simp] theorem markers_put (db : Database) (kind : Kind) (key : Key) (row : Row) :
    (db.put kind key row).markers = db.markers := by
  unfold put
  split <;> rfl

@[simp] theorem markers_drop (db : Database) (kind : Kind) (key : Key) :
    (db.drop kind key).markers = db.markers := by
  unfold drop
  split <;> rfl

/-- Mark a kind as prepared, if there are markers. -/
def mark (db : Database) (kind : Kind) : Database :=
  { db with markers := db.markers.map (·.set kind true) }

/-- A kind that was marked is, and the marks of the others stay. -/
theorem isMarked_mark (h : db.markers.isSome) (kind other : Kind) :
    (db.mark kind).isMarked other = (db.isMarked other || other = kind) := by
  obtain ⟨marks, hmarks⟩ := Option.isSome_iff_exists.mp h
  by_cases ho : other = kind <;> simp [mark, isMarked, hmarks, PerKind.get_set, ho]

/-- Marking a kind again changes nothing. -/
theorem mark_of_isMarked (h : db.isMarked kind = true) : db.mark kind = db := by
  obtain ⟨version, tables, markers⟩ := db
  cases markers with
  | none => rfl
  | some marks =>
      have hset : marks.set kind true = marks := by
        refine PerKind.ext_get fun other => ?_
        rw [PerKind.get_set]
        split
        · rename_i hother
          rw [hother]
          simpa [isMarked] using h.symm
        · rfl
      simp [mark, hset]

/-- A row that was put is there, and no other row is touched. -/
theorem row?_put (h : db.table? kind = some t) (key : Key) (row : Row) (other : Kind) (k : Key) :
    (db.put kind key row).row? other k
      = if other = kind ∧ k = key then some row else db.row? other k := by
  rw [put_eq h]
  by_cases ho : other = kind
  · subst ho
    simp [row?, h, SortedMap.get?_insert]
  · simp [row?, table?_setTable, ho]

/-- A row that was dropped is gone, and no other row is touched. -/
theorem row?_drop (h : db.table? kind = some t) (key : Key) (other : Kind) (k : Key) :
    (db.drop kind key).row? other k
      = if other = kind ∧ k = key then none else db.row? other k := by
  rw [drop_eq h]
  by_cases ho : other = kind
  · subst ho
    simp [row?, h, SortedMap.get?_erase]
  · simp [row?, table?_setTable, ho]

theorem row?_put_self (h : db.table? kind = some t) (key : Key) (row : Row) :
    (db.put kind key row).row? kind key = some row := by
  rw [row?_put h, if_pos ⟨rfl, rfl⟩]

theorem row?_drop_self (h : db.table? kind = some t) (key : Key) :
    (db.drop kind key).row? kind key = none := by
  rw [row?_drop h, if_pos ⟨rfl, rfl⟩]

/-- The version of the row of a kind and key. -/
def version? (db : Database) (kind : Kind) (key : Key) : Option Int :=
  (db.row? kind key).map (·.version)

theorem version?_of_row? {row : Row} (h : db.row? kind key = some row) :
    db.version? kind key = some row.version := by
  rw [version?, h]
  rfl

theorem version?_of_no_row (h : db.row? kind key = none) : db.version? kind key = none := by
  rw [version?, h]
  rfl

/-- The version of what is written next under a key: one where there is no row. -/
def nextVersion (db : Database) (kind : Kind) (key : Key) : Int := (db.version? kind key).getD 0 + 1

theorem version?_put (h : db.table? kind = some t) (key : Key) (row : Row) (other : Kind) (k : Key) :
    (db.put kind key row).version? other k
      = if other = kind ∧ k = key then some row.version else db.version? other k := by
  rw [version?, row?_put h]
  split <;> rfl

theorem version?_drop (h : db.table? kind = some t) (key : Key) (other : Kind) (k : Key) :
    (db.drop kind key).version? other k
      = if other = kind ∧ k = key then none else db.version? other k := by
  rw [version?, row?_drop h]
  split <;> rfl

end Database

end AccessStore
