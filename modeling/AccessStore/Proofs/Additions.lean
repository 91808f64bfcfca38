/-
Adding records one after another.

Records are added in the order of a list, up to the first one that cannot be.  Whether one can
depends on the rows that are there and on the records before it, which may be of other kinds.
`Addable` says of a whole list that it can be added, and `FirstRefusal` which record of it cannot be
and why.  Both speak of the content at the start only, so nothing needs to be known of what lies in
between.

The induction is on the list and the step is the same for both: once a record has been added, the
others are addable to what is there then just if they were addable after it to what was there before,
`addable_cons`, and the first refusal among them is the first among all, `FirstRefusal.cons`.
-/
import AccessStore.Proofs.SeedingOnce

namespace AccessStore

/-- Where the row of a record is. -/
def Record.spot (r : Record) : Kind × Key := (r.kind, r.key)

/-- The row of a record that has just been added. -/
def addedRow (r : Record) : Row := ⟨Version.initial.number, Records.payload r⟩

/-- The content once these records have been added. -/
def Database.grown (db : Database) (records : List Record) : Database :=
  records.foldl (fun db r => db.put r.kind r.key (addedRow r)) db

/-- Records that can be added one after another. -/
structure Addable (w : Terms) (db : Database) (records : List Record) : Prop where
  /-- No identity is blank. -/
  named : ∀ r ∈ records, r.blankIdentity? = none
  /-- The rows of their kinds can be written. -/
  writable : ∀ r ∈ records, w.writeFault? db r.kind = none
  /-- No two are of the same kind and key. -/
  distinct : (records.map Record.spot).Nodup
  /-- No key is taken. -/
  untaken : ∀ r ∈ records, db.row? r.kind r.key = none

/-- Why a record cannot be added after those before it. -/
inductive Refused (w : Terms) (db : Database) (before : List Record) (r : Record) : StoreError → Prop
  | blank {field : BlankIdentity} (h : r.blankIdentity? = some field) :
      Refused w db before r (.invalid field)
  | storage {fault : StorageFault} (hnamed : r.blankIdentity? = none)
      (h : w.writeFault? db r.kind = some fault) : Refused w db before r (.storage fault)
  | taken (hnamed : r.blankIdentity? = none) (hwritable : w.writeFault? db r.kind = none)
      (h : r.spot ∈ before.map Record.spot ∨ (db.row? r.kind r.key).isSome) :
      Refused w db before r (.duplicateKey r.kind r.key)

/-- The first of the records that cannot be added cannot be added for this reason. -/
def FirstRefusal (w : Terms) (db : Database) (records : List Record) (e : StoreError) : Prop :=
  ∃ before r after, records = before ++ r :: after ∧ Addable w db before ∧ Refused w db before r e

variable {w : Terms} {db : Database} {r : Record} {records rest : List Record} {e : StoreError}

theorem addable_nil (w : Terms) (db : Database) : Addable w db [] :=
  ⟨by simp, by simp, by simp, by simp⟩

/-- Records of which one is refused are not addable. -/
theorem FirstRefusal.not_addable (h : FirstRefusal w db records e) : ¬ Addable w db records := by
  intro ha
  obtain ⟨before, r, after, rfl, -, hr⟩ := h
  have hmem : r ∈ before ++ r :: after := List.mem_append_right _ List.mem_cons_self
  cases hr with
  | blank hblank =>
      rw [ha.named r hmem] at hblank
      cases hblank
  | storage _ hfault =>
      rw [ha.writable r hmem] at hfault
      cases hfault
  | taken _ _ htaken =>
      rcases htaken with hearlier | hrow
      · have hdistinct := ha.distinct
        rw [List.map_append, List.map_cons, List.nodup_append] at hdistinct
        exact hdistinct.2.2 _ hearlier _ List.mem_cons_self rfl
      · rw [ha.untaken r hmem] at hrow
        cases hrow

section Adding

/-- Records are addable if the first of them is and the others are once it has been added. -/
theorem addable_cons (hnamed : r.blankIdentity? = none) (hw : w.writeFault? db r.kind = none)
    (hrow : db.row? r.kind r.key = none) :
    Addable w db (r :: rest) ↔ Addable w (db.put r.kind r.key (addedRow r)) rest := by
  obtain ⟨t, ht⟩ := Terms.table?_of_writeFault? hw
  have hrows (r' : Record) : (db.put r.kind r.key (addedRow r)).row? r'.kind r'.key
      = if r'.spot = r.spot then some (addedRow r) else db.row? r'.kind r'.key := by
    rw [Database.row?_put ht]
    simp only [Record.spot, Prod.mk.injEq]
  have hfault (r' : Record) := Terms.writeFault?_put w ht r.key (addedRow r) r'.kind
  constructor
  · intro h
    have hdistinct := List.nodup_cons.mp h.distinct
    refine ⟨fun r' hr' => h.named r' (List.mem_cons_of_mem _ hr'), ?_, hdistinct.2, ?_⟩
    · intro r' hr'
      rw [hfault]
      exact h.writable r' (List.mem_cons_of_mem _ hr')
    · intro r' hr'
      have hne : r'.spot ≠ r.spot := by
        intro hsame
        exact hdistinct.1 (hsame ▸ List.mem_map_of_mem hr')
      rw [hrows, if_neg hne]
      exact h.untaken r' (List.mem_cons_of_mem _ hr')
  · intro h
    have huntaken (r' : Record) (hr' : r' ∈ rest) :
        r'.spot ≠ r.spot ∧ db.row? r'.kind r'.key = none := by
      have hfree := h.untaken r' hr'
      rw [hrows] at hfree
      split at hfree
      · cases hfree
      · exact ⟨‹_›, hfree⟩
    refine ⟨?_, ?_, List.nodup_cons.mpr ⟨?_, h.distinct⟩, ?_⟩
    · exact List.forall_mem_cons.mpr ⟨hnamed, h.named⟩
    · refine List.forall_mem_cons.mpr ⟨hw, fun r' hr' => ?_⟩
      rw [← hfault]
      exact h.writable r' hr'
    · intro hmem
      obtain ⟨r', hr', hsame⟩ := List.mem_map.mp hmem
      exact (huntaken r' hr').1 hsame
    · exact List.forall_mem_cons.mpr ⟨hrow, fun r' hr' => (huntaken r' hr').2⟩

/-- A refusal among the others is one among all. -/
theorem FirstRefusal.cons (hnamed : r.blankIdentity? = none) (hw : w.writeFault? db r.kind = none)
    (hrow : db.row? r.kind r.key = none)
    (h : FirstRefusal w (db.put r.kind r.key (addedRow r)) rest e) :
    FirstRefusal w db (r :: rest) e := by
  obtain ⟨before, r', after, rfl, hbefore, hrefused⟩ := h
  obtain ⟨t, ht⟩ := Terms.table?_of_writeFault? hw
  have hfault := Terms.writeFault?_put w ht r.key (addedRow r) r'.kind
  refine ⟨r :: before, r', after, rfl, (addable_cons hnamed hw hrow).mpr hbefore, ?_⟩
  cases hrefused with
  | blank hblank => exact .blank hblank
  | storage hnamed' hfault' =>
      rw [hfault] at hfault'
      exact .storage hnamed' hfault'
  | taken hnamed' hw' htaken =>
      rw [hfault] at hw'
      refine .taken hnamed' hw' ?_
      rcases htaken with hearlier | hrow'
      · exact .inl (List.mem_cons_of_mem _ hearlier)
      · rw [Database.row?_put ht] at hrow'
        split at hrow'
        · rename_i hsame
          have hspot : r'.spot = r.spot := Prod.ext hsame.1 hsame.2
          rw [hspot]
          exact .inl List.mem_cons_self
        · exact .inr hrow'

/-- **Records are all added, or the first refusal among them is told.** -/
theorem effect_addAll_cases (w : Terms) (db : Database) (records : List Record) :
    (Addable w db records ∧ (Hook.addAll records).effect w db = ⟨.ok (), db.grown records⟩) ∨
      ∃ e, FirstRefusal w db records e ∧ ((Hook.addAll records).effect w db).result = .error e := by
  induction records generalizing db with
  | nil => exact .inl ⟨addable_nil w db, rfl⟩
  | cons r rest ih =>
      rw [Hook.effect_addAll_cons, Records.effect_add]
      cases hnamed : r.blankIdentity? with
      | some field =>
          exact .inr ⟨_, ⟨[], r, rest, rfl, addable_nil w db, .blank hnamed⟩, rfl⟩
      | none =>
          cases hw : w.writeFault? db r.kind with
          | some fault =>
              exact .inr ⟨_, ⟨[], r, rest, rfl, addable_nil w db, .storage hnamed hw⟩, rfl⟩
          | none =>
              by_cases hrow : (db.row? r.kind r.key).isSome
              · simp only [if_pos hrow]
                exact .inr
                  ⟨_, ⟨[], r, rest, rfl, addable_nil w db, .taken hnamed hw (.inr hrow)⟩, rfl⟩
              · simp only [if_neg hrow, Outcome.andThen_ok]
                -- The rest is added to the content with this record.
                have hrow' : db.row? r.kind r.key = none := by simpa using hrow
                rcases ih (db.put r.kind r.key (addedRow r)) with ⟨ha, heffect⟩ | ⟨e, hrefusal, herror⟩
                · exact .inl ⟨(addable_cons hnamed hw hrow').mpr ha, heffect⟩
                · exact .inr ⟨e, hrefusal.cons hnamed hw hrow', herror⟩

end Adding

/-! ### What is there once records have been added -/

namespace Database

/-- Each is under its key, and besides them there is what was there before. -/
theorem row?_grown (htables : ∀ r ∈ records, (db.table? r.kind).isSome)
    (hdistinct : (records.map Record.spot).Nodup) (kind : Kind) (key : Key) :
    (db.grown records).row? kind key
      = match records.find? (·.spot = (kind, key)) with
        | some r => some (addedRow r)
        | none => db.row? kind key := by
  induction records generalizing db with
  | nil => rfl
  | cons r rest ih =>
      obtain ⟨htable, hrest⟩ := List.forall_mem_cons.mp htables
      obtain ⟨hnew, hnodup⟩ := List.nodup_cons.mp hdistinct
      obtain ⟨t, ht⟩ := Option.isSome_iff_exists.mp htable
      have htables' : ∀ r' ∈ rest, ((db.put r.kind r.key (addedRow r)).table? r'.kind).isSome := by
        intro r' hr'
        rw [isSome_table?_put]
        exact hrest r' hr'
      show ((db.put r.kind r.key (addedRow r)).grown rest).row? kind key = _
      rw [ih htables' hnodup, row?_put ht]
      by_cases hr : r.spot = (kind, key)
      · -- No later record is of this kind and key.
        have hlater : rest.find? (·.spot = (kind, key)) = none := by
          apply List.find?_eq_none.mpr
          intro r' hr' hsame
          rw [decide_eq_true_eq] at hsame
          exact hnew (List.mem_map.mpr ⟨r', hr', hsame.trans hr.symm⟩)
        rw [hlater, List.find?_cons_of_pos (by simpa using hr)]
        obtain ⟨rfl, rfl⟩ := Prod.mk.inj hr
        exact if_pos ⟨rfl, rfl⟩
      · rw [List.find?_cons_of_neg (by simpa using hr)]
        cases rest.find? (·.spot = (kind, key)) with
        | some r' => rfl
        | none => exact if_neg fun hsame => hr (Prod.ext hsame.1.symm hsame.2.symm)

/-- Adding records puts rows under their keys, and does nothing else. -/
theorem edited_grown {spots : Kind → Key → Prop} (hspots : ∀ r ∈ records, spots r.kind r.key)
    (hnamed : ∀ r ∈ records, r.blankIdentity? = none) (db : Database) :
    Edited spots db (db.grown records) := by
  induction records generalizing db with
  | nil => exact .same
  | cons r rest ih =>
      obtain ⟨hspot, hspots⟩ := List.forall_mem_cons.mp hspots
      obtain ⟨hr, hnamed⟩ := List.forall_mem_cons.mp hnamed
      have hput : Edited spots db (db.put r.kind r.key (addedRow r)) :=
        Edited.same.put hspot hr (by decide)
      exact hput.trans (ih hspots hnamed _)

end Database

end AccessStore
