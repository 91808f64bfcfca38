/-
What each operation on the records of a kind does.

There is one law for each operation, which says in what order its reasons to fail are
looked at, and what it does to the rows if there is none.  Two things are read off it.
What an operation that succeeds has found and has done is `add_ok`, `write_ok` and
`delete_ok`.  A row is put or dropped only at the very end, so an operation that fails
has changed nothing; that is `add_harmless`, `write_harmless` and `delete_harmless`.
-/
import Mathlib.Data.List.Forall2
import AccessStore.Proofs.Statement
import AccessStore.Records

namespace AccessStore

/-! ### Doing something for all that is listed -/

section MapM

variable {ε α β : Type} {f : α → Except ε β} {e : ε}

/-- What is done for a list succeeds if it does for everything in it. -/
theorem mapM_eq_ok {xs : List α} {ys : List β} :
    xs.mapM f = .ok ys ↔ List.Forall₂ (fun x y => f x = .ok y) xs ys := by
  induction xs generalizing ys with
  | nil =>
      rw [List.mapM_nil, List.forall₂_nil_left_iff]
      exact ⟨fun h => (Except.ok.inj h).symm, fun h => by rw [h]; rfl⟩
  | cons x xs ih =>
      rw [List.mapM_cons, List.forall₂_cons_left_iff]
      constructor
      · intro h
        cases hx : f x with
        | error e => simp [hx, bind, Except.bind] at h
        | ok y =>
            cases hxs : xs.mapM f with
            | error e => simp [hx, hxs, bind, Except.bind] at h
            | ok rest =>
                simp only [hx, hxs, bind, Except.bind, pure, Except.pure, Except.ok.injEq] at h
                exact ⟨y, rest, rfl, ih.mp hxs, h.symm⟩
      · rintro ⟨y, rest, hx, hrest, rfl⟩
        rw [hx, ih.mpr hrest]
        rfl

/-- It fails as it does for the first thing for which it fails. -/
theorem mapM_eq_error {xs : List α} :
    xs.mapM f = .error e ↔ ∃ before x after, xs = before ++ x :: after ∧
      (∀ a ∈ before, ∃ b, f a = .ok b) ∧ f x = .error e := by
  induction xs with
  | nil =>
      refine iff_of_false (fun h => nomatch h) ?_
      rintro ⟨before, x, after, h, -⟩
      simp at h
  | cons x xs ih =>
      rw [List.mapM_cons]
      constructor
      · intro h
        cases hx : f x with
        | error e' =>
            rw [hx] at h
            exact ⟨[], x, xs, rfl, by simp, hx.trans (congrArg Except.error (Except.error.inj h))⟩
        | ok y =>
            cases hxs : xs.mapM f with
            | ok rest => simp [hx, hxs, bind, Except.bind, pure, Except.pure] at h
            | error e' =>
                simp only [hx, hxs, bind, Except.bind, Except.error.injEq] at h
                obtain ⟨before, z, after, rfl, hbefore, hz⟩ := ih.mp (hxs.trans (by rw [h]))
                exact ⟨x :: before, z, after, rfl, List.forall_mem_cons.mpr ⟨⟨y, hx⟩, hbefore⟩, hz⟩
      · rintro ⟨before, z, after, hlist, hbefore, hz⟩
        cases before with
        | nil =>
            obtain ⟨rfl, rfl⟩ := List.cons.inj hlist
            rw [hz]
            rfl
        | cons a before =>
            obtain ⟨rfl, rfl⟩ := List.cons.inj hlist
            obtain ⟨⟨b, hb⟩, hbefore⟩ := List.forall_mem_cons.mp hbefore
            rw [hb, ih.mpr ⟨before, z, after, rfl, hbefore, hz⟩]
            rfl

/-- What is done with each element of a list has been done with this one. -/
theorem exists_of_forall₂ {R : α → β → Prop} {xs : List α} {ys : List β}
    (h : List.Forall₂ R xs ys) {x : α} (hx : x ∈ xs) : ∃ y, R x y := by
  induction h with
  | nil => cases hx
  | cons hR _ ih =>
      rcases List.mem_cons.mp hx with rfl | hx
      · exact ⟨_, hR⟩
      · exact ih hx

end MapM

namespace Records

variable {w : Terms} {db db' : Database} {kind : Kind} {key : Key} {r : Record} {h : Handle}

/-! ### Looking -/

theorem plain_statement {α : Type} {action : Action StorageFault α} (ha : action.Plain) :
    (statement action).Plain :=
  Program.plain_once (Action.plain_mapError _ ha)

theorem effect_statement {α : Type} (action : Action StorageFault α) (w : Terms) (db : Database) :
    (statement action).effect w db = (action.effect w db).mapError .storage := by
  rw [statement, Program.effect_once, Action.effect_mapError]

theorem plain_handle? (kind : Kind) (key : Key) : (handle? kind key).Plain :=
  Program.plain_bind (plain_statement (Action.plain_select kind key)) fun _ => Program.plain_pure _

/-- A handle has the version of the row. -/
theorem effect_handle? (kind : Kind) (key : Key) (w : Terms) (db : Database) :
    (handle? kind key).effect w db = match w.readFault? db kind with
      | some fault => ⟨.error (.storage fault), db⟩
      | none => ⟨.ok ((db.row? kind key).map fun row => ⟨key, ⟨row.version⟩⟩), db⟩ := by
  rw [handle?, Program.effect_bind, effect_statement, Action.effect_select]
  cases w.readFault? db kind <;> rfl

/-- What is in a row fails to be a record only by damage. -/
theorem damaged_of_ofRow {row : Row} {e : StoreError} (he : ofRow kind row = .error e) :
    ∃ damage, e = .damaged damage := by
  unfold ofRow at he
  split at he
  · exact ⟨_, (Except.error.inj he).symm⟩
  · split at he
    · exact ⟨_, (Except.error.inj he).symm⟩
    · simp at he

theorem damaged_of_rows {entries : List (Key × Row)} {e : StoreError}
    (he : entries.mapM (fun entry => ofRow kind entry.2) = .error e) :
    ∃ damage, e = .damaged damage := by
  obtain ⟨-, entry, -, -, -, hentry⟩ := mapM_eq_error.mp he
  exact damaged_of_ofRow hentry

theorem handle?_database (kind : Kind) (key : Key) (w : Terms) (db : Database) :
    ((handle? kind key).effect w db).database = db := by
  rw [effect_handle?]
  cases w.readFault? db kind <;> rfl

theorem plain_browse (kind : Kind) : (browse kind).Plain :=
  Program.plain_bind (plain_statement (Action.plain_table kind)) fun _ => Program.plain_ofExcept _

theorem effect_browse (kind : Kind) (w : Terms) (db : Database) :
    (browse kind).effect w db = match w.readFault? db kind with
      | some fault => ⟨.error (.storage fault), db⟩
      | none => ⟨(db.rows kind).entries.mapM fun entry => ofRow kind entry.2, db⟩ := by
  rw [browse, Program.effect_bind, effect_statement, Action.effect_table]
  cases w.readFault? db kind <;> rfl

/-- Looking leaves everything as it is. -/
theorem browse_database (kind : Kind) (w : Terms) (db : Database) :
    ((browse kind).effect w db).database = db := by
  rw [effect_browse]
  cases w.readFault? db kind <;> rfl

/-- The record of a key in the row that was found under it. -/
def inRow (kind : Kind) (key : Key) : Option Row → Except StoreError (Option Record)
  | none => .ok none
  | some row =>
      match ofRow kind row with
      | .error e => .error e
      | .ok r => if r.key = key then .ok (some r) else .error (.damaged (.foreignKey kind key r.key))

/-- A record that was found carries the version of its row. -/
theorem version_of_inRow {row? : Option Row} (hr : inRow kind key row? = .ok (some r)) :
    r.key = key ∧ ∃ row, row? = some row ∧ r.version = some ⟨row.version⟩ := by
  cases row? with
  | none => simp [inRow] at hr
  | some row =>
      rw [inRow] at hr
      split at hr
      · simp at hr
      · rename_i r' hrow
        split at hr
        · rename_i hkey
          have hr' : r' = r := by simpa using hr
          subst hr'
          refine ⟨hkey, row, rfl, ?_⟩
          -- The version of the row is put into the record last.
          unfold ofRow at hrow
          split at hrow
          · simp at hrow
          · split at hrow
            · simp at hrow
            · rw [← Except.ok.inj hrow, Record.version_withVersion]
        · simp at hr

theorem damaged_of_inRow {row? : Option Row} {e : StoreError} (he : inRow kind key row? = .error e) :
    ∃ damage, e = .damaged damage := by
  cases row? with
  | none => simp [inRow] at he
  | some row =>
      rw [inRow] at he
      split at he
      · rename_i hrow
        cases he
        exact damaged_of_ofRow hrow
      · split at he
        · simp at he
        · exact ⟨_, (Except.error.inj he).symm⟩

theorem plain_read (kind : Kind) (key : Key) : (read kind key).Plain := by
  refine Program.plain_bind (plain_statement (Action.plain_select kind key)) fun found => ?_
  cases found with
  | none => exact Program.plain_pure _
  | some row =>
      refine Program.plain_bind (Program.plain_ofExcept _) fun r => ?_
      split
      · exact Program.plain_pure _
      · exact Program.plain_fail _

theorem effect_read (kind : Kind) (key : Key) (w : Terms) (db : Database) :
    (read kind key).effect w db = match w.readFault? db kind with
      | some fault => ⟨.error (.storage fault), db⟩
      | none => ⟨inRow kind key (db.row? kind key), db⟩ := by
  rw [read, Program.effect_bind, effect_statement, Action.effect_select]
  cases w.readFault? db kind with
  | some fault => rfl
  | none =>
      cases db.row? kind key with
      | none => rfl
      | some row =>
          simp only [Outcome.mapError_ok, Outcome.andThen_ok, inRow]
          rw [Program.effect_bind, Program.effect_ofExcept]
          cases ofRow kind row with
          | error e => rfl
          | ok r =>
              simp only [Outcome.andThen_ok]
              split <;> rfl

theorem read_database (kind : Kind) (key : Key) (w : Terms) (db : Database) :
    ((read kind key).effect w db).database = db := by
  rw [effect_read]
  cases w.readFault? db kind <;> rfl

/-! ### Adding -/

theorem plain_add (r : Record) : (add r).Plain := by
  refine Program.plain_bind (Program.plain_ofExcept _) fun _ =>
    Program.plain_bind (plain_statement (Action.plain_insert _ _ _)) fun inserted => ?_
  cases inserted with
  | true => exact Program.plain_pure _
  | false => exact Program.plain_fail _

/-- Adding a record puts it at the first version, unless there is one of its key. -/
theorem effect_add (r : Record) (w : Terms) (db : Database) :
    (add r).effect w db = match r.blankIdentity? with
      | some blank => ⟨.error (.invalid blank), db⟩
      | none => match w.writeFault? db r.kind with
        | some fault => ⟨.error (.storage fault), db⟩
        | none =>
            if (db.row? r.kind r.key).isSome then ⟨.error (.duplicateKey r.kind r.key), db⟩
            else ⟨.ok Version.initial, db.put r.kind r.key ⟨Version.initial.number, payload r⟩⟩ := by
  rw [add, Program.effect_bind, Program.effect_ofExcept, identified]
  cases r.blankIdentity? with
  | some blank => rfl
  | none =>
      rw [Outcome.andThen_ok, Program.effect_bind, effect_statement, Action.effect_insert]
      cases w.writeFault? db r.kind with
      | some fault => rfl
      | none => by_cases hrow : (db.row? r.kind r.key).isSome <;> simp [hrow]

theorem add_ok {v : Version} (hok : (add r).effect w db = ⟨.ok v, db'⟩) :
    v = Version.initial ∧ (∃ t, db.table? r.kind = some t) ∧ db.row? r.kind r.key = none ∧
      db' = db.put r.kind r.key ⟨Version.initial.number, payload r⟩ := by
  rw [effect_add] at hok
  cases hid : r.blankIdentity? with
  | some blank => simp [hid] at hok
  | none =>
      cases hw : w.writeFault? db r.kind with
      | some fault => simp [hid, hw] at hok
      | none =>
          have htable := Terms.table?_of_writeFault? hw
          by_cases hrow : (db.row? r.kind r.key).isSome
          · simp [hid, hw, hrow] at hok
          · simp only [hid, hw, hrow, Bool.false_eq_true, if_false, Outcome.mk.injEq,
              Except.ok.injEq] at hok
            exact ⟨hok.1.symm, htable, by simpa using hrow, hok.2.symm⟩

theorem add_harmless (r : Record) (w : Terms) (db : Database) :
    ((add r).effect w db).Harmless db := by
  rw [effect_add]
  cases r.blankIdentity? with
  | some blank => exact Outcome.harmless_same _ _
  | none =>
      cases w.writeFault? db r.kind with
      | some fault => exact Outcome.harmless_same _ _
      | none =>
          by_cases hrow : (db.row? r.kind r.key).isSome
          · simp only [if_pos hrow]
            exact Outcome.harmless_same _ _
          · simp only [if_neg hrow]
            exact Outcome.harmless_ok _ _ _

/-! ### Writing -/

theorem plain_write (h : Handle) (r : Record) : (write h r).Plain := by
  refine Program.plain_bind (Program.plain_ofExcept _) fun _ => ?_
  split
  · exact Program.plain_fail _
  · refine Program.plain_bind (plain_statement (Action.plain_update _ _ _ _)) fun updated => ?_
    cases updated with
    | true => exact Program.plain_pure _
    | false => exact Program.plain_fail _

/-- Writing a record puts it at the version after the one looked at, if that is the row's. -/
theorem effect_write (h : Handle) (r : Record) (w : Terms) (db : Database) :
    (write h r).effect w db = match r.blankIdentity? with
      | some blank => ⟨.error (.invalid blank), db⟩
      | none =>
          if r.key ≠ h.key then ⟨.error (.keyMismatch r.kind h.key r.key), db⟩
          else match w.writeFault? db r.kind with
            | some fault => ⟨.error (.storage fault), db⟩
            | none =>
                if (db.row? r.kind r.key).any (·.version = h.version.number) then
                  if h.version.number + 1 ≤ 0 then ⟨.error (.storage .constraint), db⟩
                  else ⟨.ok h.version.next, db.put r.kind r.key ⟨h.version.number + 1, payload r⟩⟩
                else ⟨.error (.concurrentModification r.kind r.key), db⟩ := by
  rw [write, Program.effect_bind, Program.effect_ofExcept, identified]
  cases r.blankIdentity? with
  | some blank => rfl
  | none =>
      rw [Outcome.andThen_ok]
      by_cases hkey : r.key ≠ h.key
      · rw [if_pos hkey, if_pos hkey, Program.effect_fail]
      · rw [if_neg hkey, if_neg hkey, Program.effect_bind, effect_statement, Action.effect_update]
        cases w.writeFault? db r.kind with
        | some fault => rfl
        | none =>
            by_cases hrow : (db.row? r.kind r.key).any (·.version = h.version.number)
            · by_cases hv : h.version.number + 1 ≤ 0 <;> simp [hrow, hv]
            · simp [hrow]

theorem write_ok {v : Version} (hok : (write h r).effect w db = ⟨.ok v, db'⟩) :
    v = h.version.next ∧ r.key = h.key ∧ (∃ t, db.table? r.kind = some t) ∧
      (db.row? r.kind r.key).map (·.version) = some h.version.number ∧
      db' = db.put r.kind r.key ⟨h.version.number + 1, payload r⟩ := by
  rw [effect_write] at hok
  cases hid : r.blankIdentity? with
  | some blank => simp [hid] at hok
  | none =>
      by_cases hkey : r.key ≠ h.key
      · simp [hid, hkey] at hok
      · cases hw : w.writeFault? db r.kind with
        | some fault => simp [hid, hkey, hw] at hok
        | none =>
            have htable := Terms.table?_of_writeFault? hw
            cases hrow : db.row? r.kind r.key with
            | none => simp [hid, hkey, hw, hrow] at hok
            | some row =>
                by_cases hv : row.version = h.version.number
                · by_cases hpos : h.version.number + 1 ≤ 0
                  · simp [hid, hkey, hw, hrow, hv, hpos] at hok
                  · simp [hid, hkey, hw, hrow, hv, hpos] at hok
                    exact ⟨hok.1.symm, by simpa using hkey, htable, by simp [hv], hok.2.symm⟩
                · simp [hid, hkey, hw, hrow, hv] at hok

theorem write_harmless (h : Handle) (r : Record) (w : Terms) (db : Database) :
    ((write h r).effect w db).Harmless db := by
  rw [effect_write]
  cases r.blankIdentity? with
  | some blank => exact Outcome.harmless_same _ _
  | none =>
      by_cases hkey : r.key ≠ h.key
      · simp only [if_pos hkey]
        exact Outcome.harmless_same _ _
      · simp only [if_neg hkey]
        cases w.writeFault? db r.kind with
        | some fault => exact Outcome.harmless_same _ _
        | none =>
            by_cases hrow : (db.row? r.kind r.key).any (·.version = h.version.number)
            · by_cases hv : h.version.number + 1 ≤ 0
              · simp only [if_pos hrow, if_pos hv]
                exact Outcome.harmless_same _ _
              · simp only [if_pos hrow, if_neg hv]
                exact Outcome.harmless_ok _ _ _
            · simp only [if_neg hrow]
              exact Outcome.harmless_same _ _

/-! ### Deleting -/

theorem plain_deleteAt (kind : Kind) (h : Handle) : (deleteAt kind h).Plain := by
  refine Program.plain_bind (plain_statement (Action.plain_delete _ _ _)) fun deleted => ?_
  cases deleted with
  | true => exact Program.plain_pure _
  | false =>
      refine Program.plain_bind (plain_handle? kind h.key) fun found => ?_
      cases found with
      | some _ => exact Program.plain_fail _
      | none => exact Program.plain_pure _

/-- Deleting through a handle drops the row if it has the version looked at. -/
theorem effect_deleteAt (kind : Kind) (h : Handle) (w : Terms) (db : Database) :
    (deleteAt kind h).effect w db = match w.writeFault? db kind with
      | some fault => ⟨.error (.storage fault), db⟩
      | none =>
          if (db.row? kind h.key).any (·.version = h.version.number) then
            ⟨.ok true, db.drop kind h.key⟩
          else if (db.row? kind h.key).isSome then
            ⟨.error (.concurrentModification kind h.key), db⟩
          else ⟨.ok false, db⟩ := by
  rw [deleteAt, Program.effect_bind, effect_statement, Action.effect_delete]
  cases hwrite : w.writeFault? db kind with
  | some fault => rfl
  | none =>
      by_cases hrow : (db.row? kind h.key).any (·.version = h.version.number)
      · simp [hrow]
      · simp only [hrow, Bool.false_eq_true, if_false, Outcome.mapError_ok, Outcome.andThen_ok]
        rw [Program.effect_bind, effect_handle?, Terms.readFault?_of_writeFault? hwrite]
        cases db.row? kind h.key <;> rfl

theorem deleteAt_ok {existed : Bool} (hok : (deleteAt kind h).effect w db = ⟨.ok existed, db'⟩) :
    (existed = true ∧ (∃ t, db.table? kind = some t) ∧ db' = db.drop kind h.key) ∨
      (existed = false ∧ db' = db) := by
  rw [effect_deleteAt] at hok
  cases hw : w.writeFault? db kind with
  | some fault => simp [hw] at hok
  | none =>
      by_cases hrow : (db.row? kind h.key).any (·.version = h.version.number)
      · simp only [hw, hrow, if_true, Outcome.mk.injEq, Except.ok.injEq] at hok
        exact .inl ⟨hok.1.symm, Terms.table?_of_writeFault? hw, hok.2.symm⟩
      · by_cases hsome : (db.row? kind h.key).isSome
        · simp [hw, hrow, hsome] at hok
        · simp only [hw, hrow, hsome, Bool.false_eq_true, if_false, Outcome.mk.injEq,
            Except.ok.injEq] at hok
          exact .inr ⟨hok.1.symm, hok.2.symm⟩

theorem deleteAt_harmless (kind : Kind) (h : Handle) (w : Terms) (db : Database) :
    ((deleteAt kind h).effect w db).Harmless db := by
  rw [effect_deleteAt]
  cases w.writeFault? db kind with
  | some fault => exact Outcome.harmless_same _ _
  | none =>
      by_cases hrow : (db.row? kind h.key).any (·.version = h.version.number)
      · simp only [if_pos hrow]
        exact Outcome.harmless_ok _ _ _
      · simp only [if_neg hrow]
        split <;> exact Outcome.harmless_same _ _

theorem plain_delete (kind : Kind) (key : Key) : (delete kind key).Plain := by
  refine Program.plain_bind (plain_handle? kind key) fun found => ?_
  cases found with
  | some h => exact plain_deleteAt kind h
  | none => exact Program.plain_pure _

/-- Deleting at a stretch drops the row, whatever its version, and tells whether there was one. -/
theorem effect_delete (kind : Kind) (key : Key) (w : Terms) (db : Database) :
    (delete kind key).effect w db = match w.readFault? db kind with
      | some fault => ⟨.error (.storage fault), db⟩
      | none =>
          if (db.row? kind key).isSome then
            match w.writeFault? db kind with
            | some fault => ⟨.error (.storage fault), db⟩
            | none => ⟨.ok true, db.drop kind key⟩
          else ⟨.ok false, db⟩ := by
  rw [delete, Program.effect_bind, effect_handle?]
  cases w.readFault? db kind with
  | some fault => rfl
  | none =>
      cases hrow : db.row? kind key with
      | none => rfl
      | some row =>
          simp only [Option.map_some, Outcome.andThen_ok, effect_deleteAt, hrow]
          cases w.writeFault? db kind <;> simp

theorem delete_ok {existed : Bool} (hok : (delete kind key).effect w db = ⟨.ok existed, db'⟩) :
    (existed = true ∧ (∃ t, db.table? kind = some t) ∧ (db.row? kind key).isSome ∧
        db' = db.drop kind key) ∨
      (existed = false ∧ db.row? kind key = none ∧ db' = db) := by
  rw [effect_delete] at hok
  cases hr : w.readFault? db kind with
  | some fault => simp [hr] at hok
  | none =>
      by_cases hrow : (db.row? kind key).isSome
      · cases hw : w.writeFault? db kind with
        | some fault => simp [hr, hrow, hw] at hok
        | none =>
            simp only [hr, hrow, hw, if_true, Outcome.mk.injEq, Except.ok.injEq] at hok
            exact .inl ⟨hok.1.symm, Terms.table?_of_readFault? hr, hrow, hok.2.symm⟩
      · simp only [hr, hrow, Bool.false_eq_true, if_false, Outcome.mk.injEq, Except.ok.injEq] at hok
        exact .inr ⟨hok.1.symm, by simpa using hrow, hok.2.symm⟩

theorem delete_harmless (kind : Kind) (key : Key) (w : Terms) (db : Database) :
    ((delete kind key).effect w db).Harmless db := by
  rw [effect_delete]
  cases w.readFault? db kind with
  | some fault => exact Outcome.harmless_same _ _
  | none =>
      by_cases hrow : (db.row? kind key).isSome
      · simp only [if_pos hrow]
        cases w.writeFault? db kind with
        | some fault => exact Outcome.harmless_same _ _
        | none => exact Outcome.harmless_ok _ _ _
      · simp only [if_neg hrow]
        exact Outcome.harmless_same _ _

end Records

end AccessStore
