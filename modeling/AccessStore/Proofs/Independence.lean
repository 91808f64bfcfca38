/-
Calls that have nothing to do with each other.

Two calls can be made in either order if neither changes what the other one rests on.  That a
call changes nothing else than it says is known from `Footprints`.  The other half is shown
here: what a call answers, and what it makes of the rows it rests on, is the same on any two
contents that agree on these rows and on which tables there are.  `RestsOn` says so of a
program, one lemma for each operation shows it, and programs are put together of operations in
the ways in which `RestsOn` lasts.

From there on it is a square: `Call.commute` compares row by row what the two orders leave.
Nothing is asked of the rows, and each call may be made on terms of its own.
-/
import AccessStore.Proofs.Steadiness
import AccessStore.Proofs.UserMappings

namespace AccessStore

/-! ### Agreement -/

namespace Database

variable {spots : Kind → Key → Prop} {db db' db₁ db₂ : Database} {kind : Kind} {key : Key}

/-- Two contents have tables for the same kinds and the same rows at these spots. -/
structure AgreeOn (spots : Kind → Key → Prop) (db₁ db₂ : Database) : Prop where
  tables : ∀ kind, (db₁.table? kind).isSome = (db₂.table? kind).isSome
  rows : ∀ kind key, spots kind key → db₁.row? kind key = db₂.row? kind key

/-- Contents that differ only elsewhere agree. -/
theorem SameOutside.agreeOn {elsewhere : Kind → Key → Prop} (h : db.SameOutside elsewhere db')
    (hdisjoint : ∀ kind key, spots kind key → ¬ elsewhere kind key) : AgreeOn spots db db' :=
  ⟨fun kind => (h.tables kind).symm, fun kind key hspot => (h.rows kind key (hdisjoint kind key hspot)).symm⟩

namespace AgreeOn

theorem readFault?_eq (h : AgreeOn spots db₁ db₂) (w : Terms) (kind : Kind) :
    w.readFault? db₁ kind = w.readFault? db₂ kind := by
  rw [Terms.readFault?, Terms.readFault?, h.tables]

theorem writeFault?_eq (h : AgreeOn spots db₁ db₂) (w : Terms) (kind : Kind) :
    w.writeFault? db₁ kind = w.writeFault? db₂ kind := by
  rw [Terms.writeFault?, Terms.writeFault?, h.readFault?_eq]

theorem put (h : AgreeOn spots db₁ db₂) (kind : Kind) (key : Key) (row : Row) :
    AgreeOn spots (db₁.put kind key row) (db₂.put kind key row) := by
  refine ⟨fun other => by simpa using h.tables other, ?_⟩
  intro other k hspot
  have htable := h.tables kind
  cases ht₁ : db₁.table? kind with
  | none =>
      have ht₂ : db₂.table? kind = none := by simpa [ht₁] using htable
      simpa [Database.put, ht₁, ht₂] using h.rows other k hspot
  | some t₁ =>
      rw [ht₁] at htable
      obtain ⟨t₂, ht₂⟩ := Option.isSome_iff_exists.mp htable.symm
      rw [row?_put ht₁, row?_put ht₂, h.rows other k hspot]

theorem drop (h : AgreeOn spots db₁ db₂) (kind : Kind) (key : Key) :
    AgreeOn spots (db₁.drop kind key) (db₂.drop kind key) := by
  refine ⟨fun other => by simpa using h.tables other, ?_⟩
  intro other k hspot
  have htable := h.tables kind
  cases ht₁ : db₁.table? kind with
  | none =>
      have ht₂ : db₂.table? kind = none := by simpa [ht₁] using htable
      simpa [Database.drop, ht₁, ht₂] using h.rows other k hspot
  | some t₁ =>
      rw [ht₁] at htable
      obtain ⟨t₂, ht₂⟩ := Option.isSome_iff_exists.mp htable.symm
      rw [row?_drop ht₁, row?_drop ht₂, h.rows other k hspot]

end AgreeOn

end Database

/-! ### Programs that rest on spots -/

namespace Outcome

variable {ε δ α β : Type} {spots : Kind → Key → Prop} {o₁ o₂ : Outcome ε α}

/-- The same result, and contents that agree. -/
structure Alike (spots : Kind → Key → Prop) (o₁ o₂ : Outcome ε α) : Prop where
  result : o₁.result = o₂.result
  agree : Database.AgreeOn spots o₁.database o₂.database

theorem Alike.andThen {f : α → Database → Outcome ε β} (h : Alike spots o₁ o₂)
    (hf : ∀ a db₁ db₂, Database.AgreeOn spots db₁ db₂ → Alike spots (f a db₁) (f a db₂)) :
    Alike spots (o₁.andThen f) (o₂.andThen f) := by
  obtain ⟨result₁, db₁⟩ := o₁
  obtain ⟨result₂, db₂⟩ := o₂
  obtain rfl : result₁ = result₂ := h.result
  cases result₁ with
  | ok a => exact hf a db₁ db₂ h.agree
  | error e => exact ⟨rfl, h.agree⟩

theorem Alike.orElse {f : ε → Database → Outcome ε α} (h : Alike spots o₁ o₂)
    (hf : ∀ e db₁ db₂, Database.AgreeOn spots db₁ db₂ → Alike spots (f e db₁) (f e db₂)) :
    Alike spots (o₁.orElse f) (o₂.orElse f) := by
  obtain ⟨result₁, db₁⟩ := o₁
  obtain ⟨result₂, db₂⟩ := o₂
  obtain rfl : result₁ = result₂ := h.result
  cases result₁ with
  | ok a => exact ⟨rfl, h.agree⟩
  | error e => exact hf e db₁ db₂ h.agree

theorem Alike.mapError (h : Alike spots o₁ o₂) (f : ε → δ) :
    Alike spots (o₁.mapError f) (o₂.mapError f) :=
  ⟨congrArg (Except.mapError f) h.result, h.agree⟩

/-- Transactions that began on contents that agree end on such contents. -/
theorem Alike.settle {before₁ before₂ : Database} (h : Alike spots o₁ o₂)
    (hbefore : Database.AgreeOn spots before₁ before₂) :
    Alike spots (o₁.settle before₁) (o₂.settle before₂) := by
  obtain ⟨result₁, db₁⟩ := o₁
  obtain ⟨result₂, db₂⟩ := o₂
  obtain rfl : result₁ = result₂ := h.result
  cases result₁ with
  | ok a => exact h
  | error e => exact ⟨rfl, hbefore⟩

end Outcome

namespace Program

variable {ε δ α β : Type} {spots : Kind → Key → Prop}

/-- What the program answers, and what it makes of these spots, depends on nothing but the tables there
are and the rows at the spots. -/
def RestsOn (spots : Kind → Key → Prop) (p : Program ε α) : Prop :=
  ∀ (w : Terms) (db₁ db₂ : Database), Database.AgreeOn spots db₁ db₂ →
    Outcome.Alike spots (p.effect w db₁) (p.effect w db₂)

theorem restsOn_done (result : Except ε α) : RestsOn spots (done result) :=
  fun _ _ _ h => ⟨rfl, h⟩

theorem RestsOn.bind {p : Program ε α} {f : α → Program ε β} (hp : RestsOn spots p)
    (hf : ∀ a, RestsOn spots (f a)) : RestsOn spots (p >>= f) := by
  intro w db₁ db₂ h
  rw [effect_bind, effect_bind]
  exact (hp w db₁ db₂ h).andThen fun a db₁ db₂ h => hf a w db₁ db₂ h

theorem RestsOn.mapError {p : Program ε α} (hp : RestsOn spots p) (f : ε → δ) :
    RestsOn spots (p.mapError f) := by
  intro w db₁ db₂ h
  rw [effect_mapError, effect_mapError]
  exact (hp w db₁ db₂ h).mapError f

/-- A transaction rests on what its body rests on. -/
theorem RestsOn.atomic {p : Program ε α} (hp : RestsOn spots p) (hplain : p.Plain)
    (refused : StorageFault → ε) : RestsOn spots (Program.atomic refused p) := by
  intro w db₁ db₂ h
  rw [effect_atomic _ hplain, effect_atomic _ hplain]
  cases w.barrier? with
  | some fault => exact ⟨rfl, h⟩
  | none => exact (hp w db₁ db₂ h).settle h

end Program

/-! ### Operations -/

namespace Records

open Program

variable {spots : Kind → Key → Prop} {kind : Kind} {key : Key} {r : Record}

theorem restsOn_read (hspot : spots kind key) : RestsOn spots (read kind key) := by
  intro w db₁ db₂ h
  rw [effect_read, effect_read, h.readFault?_eq, h.rows kind key hspot]
  cases w.readFault? db₂ kind <;> exact ⟨rfl, h⟩

/-- Browsing rests on the whole table. -/
theorem restsOn_browse (hspots : ∀ key, spots kind key) : RestsOn spots (browse kind) := by
  intro w db₁ db₂ h
  have htable : db₁.table? kind = db₂.table? kind :=
    Database.table?_eq_of_rows (h.tables kind) fun key => h.rows kind key (hspots key)
  rw [effect_browse, effect_browse, h.readFault?_eq, Database.rows, Database.rows, htable]
  cases w.readFault? db₂ kind <;> exact ⟨rfl, h⟩

theorem restsOn_add (hspot : spots r.kind r.key) : RestsOn spots (add r) := by
  intro w db₁ db₂ h
  rw [effect_add, effect_add, h.writeFault?_eq, h.rows _ _ hspot]
  cases r.blankIdentity? with
  | some blank => exact ⟨rfl, h⟩
  | none =>
      cases w.writeFault? db₂ r.kind with
      | some fault => exact ⟨rfl, h⟩
      | none =>
          by_cases hrow : (db₂.row? r.kind r.key).isSome
          · simp only [if_pos hrow]
            exact ⟨rfl, h⟩
          · simp only [if_neg hrow]
            exact ⟨rfl, h.put _ _ _⟩

theorem restsOn_delete (hspot : spots kind key) : RestsOn spots (delete kind key) := by
  intro w db₁ db₂ h
  rw [effect_delete, effect_delete, h.readFault?_eq, h.writeFault?_eq, h.rows _ _ hspot]
  cases w.readFault? db₂ kind with
  | some fault => exact ⟨rfl, h⟩
  | none =>
      by_cases hrow : (db₂.row? kind key).isSome
      · simp only [if_pos hrow]
        cases w.writeFault? db₂ kind with
        | some fault => exact ⟨rfl, h⟩
        | none => exact ⟨rfl, h.drop _ _⟩
      · simp only [if_neg hrow]
        exact ⟨rfl, h⟩

end Records

/-! ### Calls -/

namespace Call

open Program

variable {spots : Kind → Key → Prop} {r : Record}

/-- The spots that a call rests on: the whole table if it lists the records of a kind, the rows of the
user and of the user's mapping if it is on a user, and otherwise the row of its record. -/
def footprint : Call → Kind → Key → Prop
  | browse kind', kind, _ => kind = kind'
  | get kind' key', kind, key => (kind, key) = (kind', key')
  | c, kind, key => c.changes kind key

theorem restsOn_updateRecord (hspot : spots r.kind r.key) : RestsOn spots (updateRecord r) := by
  intro w db₁ db₂ h
  rw [effect_updateRecord, effect_updateRecord, h.readFault?_eq, h.writeFault?_eq, h.rows _ _ hspot]
  cases r.blankIdentity? with
  | some blank => exact ⟨rfl, h⟩
  | none =>
      cases w.readFault? db₂ r.kind with
      | some fault => exact ⟨rfl, h⟩
      | none =>
          cases db₂.row? r.kind r.key with
          | none => exact ⟨rfl, h⟩
          | some row =>
              by_cases hv : isOutdated r ⟨row.version⟩
              · simp only [if_pos hv]
                exact ⟨rfl, h⟩
              · simp only [if_neg hv]
                cases w.writeFault? db₂ r.kind with
                | some fault => exact ⟨rfl, h⟩
                | none =>
                    by_cases hpos : row.version + 1 ≤ 0
                    · simp only [if_pos hpos]
                      exact ⟨rfl, h⟩
                    · simp only [if_neg hpos]
                      exact ⟨rfl, h.put _ _ _⟩

theorem restsOn_putMapping {m : Mapping} (hspot : spots .mapping (Record.mapping m).key) :
    RestsOn spots (.once (putMapping m)) := by
  intro w db₁ db₂ h
  rw [Program.effect_once, Program.effect_once, effect_putMapping, effect_putMapping]
  have hupdate := restsOn_updateRecord (r := .mapping m) hspot w db₁ db₂ h
  refine (hupdate.andThen fun _ _ _ h => ⟨rfl, h⟩).orElse fun e db₁ db₂ h => ?_
  cases e with
  | notFound kind key =>
      have hadd := (Records.restsOn_add (r := .mapping m) hspot).mapError CallError.ofStore
      exact (hadd w db₁ db₂ h).andThen fun _ _ _ h => ⟨rfl, h⟩
  | _ => exact ⟨rfl, h⟩

/-- **A call rests on its footprint.** -/
theorem restsOn_program (c : Call) : RestsOn c.footprint c.program := by
  cases c with
  | browse kind => exact ((Records.restsOn_browse fun _ => rfl).mapError _).bind fun _ => restsOn_done _
  | get kind key => exact ((Records.restsOn_read rfl).mapError _).bind fun _ => restsOn_done _
  | addUser user roles =>
      refine (RestsOn.atomic ?_ (plain_addUserWith user roles) _).bind fun _ => restsOn_done _
      refine ((Records.restsOn_add (.inl rfl)).mapError _).bind fun _ => ?_
      exact ((Records.restsOn_add (.inr rfl)).mapError _).bind fun _ => restsOn_done _
  | updateUser user roles =>
      refine (RestsOn.atomic ?_ (plain_updateUserWith user roles) _).bind fun _ => restsOn_done _
      refine (restsOn_updateRecord (.inl rfl)).bind fun _ => ?_
      exact (restsOn_putMapping (.inr rfl)).bind fun _ => restsOn_done _
  | removeUser id =>
      refine (RestsOn.atomic ?_ (plain_removeUserWith id) _).bind fun _ => restsOn_done _
      refine ((Records.restsOn_delete (.inl rfl)).mapError _).bind fun removed => ?_
      cases removed with
      | true => exact ((Records.restsOn_delete (.inr rfl)).mapError _).bind fun _ => restsOn_done _
      | false => exact restsOn_done _
  | add r _ => exact ((Records.restsOn_add rfl).mapError _).bind fun _ => restsOn_done _
  | update r _ => exact (restsOn_updateRecord rfl).bind fun _ => restsOn_done _
  | remove kind key _ => exact ((Records.restsOn_delete rfl).mapError _).bind fun _ => restsOn_done _

/-- A call changes nothing but what it rests on. -/
theorem footprint_of_changes (c : Call) (kind : Kind) (key : Key) (h : c.changes kind key) :
    c.footprint kind key := by
  cases c with
  | browse kind' => exact h.elim
  | get kind' key' => exact h.elim
  | _ => exact h

/-- Neither call has to do with the footprint of the other. -/
def Independent (c₁ c₂ : Call) : Prop := ∀ kind key, c₁.footprint kind key → ¬ c₂.footprint kind key

theorem Independent.symm {c₁ c₂ : Call} (h : c₁.Independent c₂) : c₂.Independent c₁ :=
  fun kind key h₂ h₁ => h kind key h₁ h₂

variable {c₁ c₂ : Call}

theorem sameOutside_program (c : Call) (w : Terms) (db : Database) :
    db.SameOutside c.footprint (c.program.effect w db).database :=
  .of_edited ((edited_program c w db).mono c.footprint_of_changes)

/-- What was done by a call that it is independent of makes no difference to a call. -/
theorem alike_after (h : c₁.Independent c₂) (w₁ w₂ : Terms) (db : Database) :
    Outcome.Alike c₁.footprint (c₁.program.effect w₁ db)
      (c₁.program.effect w₁ (c₂.program.effect w₂ db).database) :=
  restsOn_program c₁ w₁ _ _ ((sameOutside_program c₂ w₂ db).agreeOn h)

/-- **Independent calls commute.**  In either order each answers the same, and what they leave is the
same. -/
theorem commute (h : c₁.Independent c₂) (w₁ w₂ : Terms) (db : Database) :
    (c₁.program.effect w₁ (c₂.program.effect w₂ db).database).result = (c₁.program.effect w₁ db).result ∧
      (c₂.program.effect w₂ (c₁.program.effect w₁ db).database).result = (c₂.program.effect w₂ db).result ∧
      (c₂.program.effect w₂ (c₁.program.effect w₁ db).database).database
        = (c₁.program.effect w₁ (c₂.program.effect w₂ db).database).database := by
  have h₁ := alike_after h w₁ w₂ db
  have h₂ := alike_after h.symm w₂ w₁ db
  refine ⟨h₁.result.symm, h₂.result.symm, ?_⟩
  have hd₁ := sameOutside_program c₁ w₁ db
  have hd₂ := sameOutside_program c₂ w₂ db
  have hd₁₂ := sameOutside_program c₂ w₂ (c₁.program.effect w₁ db).database
  have hd₂₁ := sameOutside_program c₁ w₁ (c₂.program.effect w₂ db).database
  -- Both orders keep the frame, so it is enough to compare rows.
  have hframe₁₂ := hd₁.toSameFrame.trans hd₁₂.toSameFrame
  have hframe₂₁ := hd₂.toSameFrame.trans hd₂₁.toSameFrame
  refine (hframe₂₁.symm.trans hframe₁₂).eq_of_rows fun kind key => ?_
  by_cases hspot₁ : c₁.footprint kind key
  · rw [hd₁₂.rows kind key (h kind key hspot₁)]
    exact h₁.agree.rows kind key hspot₁
  · rw [hd₂₁.rows kind key hspot₁]
    by_cases hspot₂ : c₂.footprint kind key
    · exact (h₂.agree.rows kind key hspot₂).symm
    · rw [hd₁₂.rows kind key hspot₂, hd₁.rows kind key hspot₁, hd₂.rows kind key hspot₂]

end Call

/-! ### Calls of a store -/

namespace Service

variable {ε α : Type} {h : Host} {link : Option Link} {w : Terms} {db : Database} {c₁ c₂ : Call}

theorem gate_work (refused : StorageFault → ε) (action : Action ε α) (h : Host) :
    (leftBy (work refused action h)).service.gate = h.service.gate := by
  have hrelease (link : Option Link) (s : Session) (h : Host) :
      (release link s h).service.gate = h.service.gate := by
    cases link <;> rfl
  cases hc : connect h with
  | error fault h₁ =>
      rw [work, hc, unchanged_of_connect_error hc]
      rfl
  | ok linked h₁ =>
      obtain ⟨link, session⟩ := linked
      obtain ⟨s, hleft⟩ := leftBy_work refused action hc
      rw [hleft, hrelease, service_of_connect hc]

/-- No call opens or closes the gate. -/
theorem gate_after_call (h : Host) (c : Call) :
    (h.after (.call c)).service.gate = h.service.gate := by
  rw [Host.after, call_eq]
  split
  · exact gate_work CallError.ofStorage c.program.run (announced h c)
  · rfl

/-- Two calls of a store that connects again have the effects of their programs one after the other. -/
theorem call_after_call {c : Call} (hopen : h.service.gate.isOpen) (hc : Connects h link w db)
    (hm : db.IsMigrated) (hagain : Reconnects h c) (c' : Call) :
    ∃ h₁ h₁₂, call c h = ended (c.program.effect w db).result h₁ ∧
      call c' h₁ = ended (c'.program.effect w (c.program.effect w db).database).result h₁₂ ∧
      content h₁₂ link = (c'.program.effect w (c.program.effect w db).database).database := by
  obtain ⟨h₁, hcall, hcontent⟩ := call_effect c hc hopen
  have hafter : h.after (.call c) = h₁ := by
    rw [Host.after, hcall, leftBy_ended]
  have hconnects := connects_again hc hm hagain
  have hgate := gate_after_call h c
  rw [hafter] at hconnects hgate
  rw [hcontent] at hconnects
  obtain ⟨h₁₂, hcall', hcontent'⟩ := call_effect c' hconnects (by rw [hgate, hopen])
  exact ⟨h₁, h₁₂, hcall, hcall', hcontent'⟩

/-- **Independent calls of a store commute.**  If neither call has to do with the footprint of the other,
each gives the same answer whether it is made first or second, and the tables are the same in the end.
It does not matter what the rows hold, on what terms the store connects, nor whether a call succeeds.
The store only has to get to its database for the second call as well.  It does, unless its address was
made to depend on the log that lies beside the file while this is open. -/
theorem commute_of_independent (hopen : h.service.gate.isOpen) (hc : Connects h link w db)
    (hm : db.IsMigrated) (hi : c₁.Independent c₂) :
    (Reconnects h c₁ → Reconnects h c₂ → ∃ r₁ r₂ h₁ h₂ h₁₂ h₂₁,
      call c₁ h = ended r₁ h₁ ∧ call c₂ h₁ = ended r₂ h₁₂ ∧
      call c₂ h = ended r₂ h₂ ∧ call c₁ h₂ = ended r₁ h₂₁ ∧
      content h₁₂ link = content h₂₁ link) ∧
    (LeadsStraight h link → Reconnects h c₁ ∧ Reconnects h c₂) := by
  refine ⟨fun hagain₁ hagain₂ => ?_, fun hstraight => ?_⟩
  · obtain ⟨h₁, h₁₂, hcall₁, hcall₁₂, hcontent₁₂⟩ := call_after_call hopen hc hm hagain₁ c₂
    obtain ⟨h₂, h₂₁, hcall₂, hcall₂₁, hcontent₂₁⟩ := call_after_call hopen hc hm hagain₂ c₁
    obtain ⟨hresult₁, hresult₂, hsame⟩ := Call.commute hi w w db
    rw [hresult₂] at hcall₁₂
    rw [hresult₁] at hcall₂₁
    exact ⟨_, _, h₁, h₂, h₁₂, h₂₁, hcall₁, hcall₁₂, hcall₂, hcall₂₁,
      by rw [hcontent₁₂, hcontent₂₁, hsame]⟩
  · exact ⟨reconnects_of_straight hc hm hstraight c₁, reconnects_of_straight hc hm hstraight c₂⟩

/-- To add a user, who gets a mapping under the default source. -/
def addAda : Call := .addUser { id := "ada" } (.ofList ["dev"])

/-- To add a mapping of the same user under another source. -/
def addLdap : Call := .add (.mapping (.new "ada" "ldap" .empty)) (by decide)

/-- The two mappings of one user have nothing to do with each other. -/
theorem commute_of_two_mappings : ∃ h₁ h₂ h₁₂ h₂₁,
    call addAda (Database.startedOn .migrated) = .ok (.version ⟨1⟩) h₁ ∧
      call addLdap h₁ = .ok (.version ⟨1⟩) h₁₂ ∧
      call addLdap (Database.startedOn .migrated) = .ok (.version ⟨1⟩) h₂ ∧
      call addAda h₂ = .ok (.version ⟨1⟩) h₂₁ ∧
      content h₁₂ none = content h₂₁ none := by
  have hindependent : addAda.Independent addLdap := by
    intro kind key hada hldap
    obtain ⟨rfl, rfl⟩ := Prod.mk.inj hldap
    rcases hada with hada | hada
    · exact absurd hada (by decide)
    · exact absurd hada (by decide)
  obtain ⟨hcommute, hstraight⟩ :=
    commute_of_independent (h := Database.startedOn .migrated) rfl (connects_memory rfl)
      Database.isMigrated_migrated hindependent
  obtain ⟨hagain₁, hagain₂⟩ := hstraight trivial
  obtain ⟨r₁, r₂, h₁, h₂, h₁₂, h₂₁, hcall₁, hcall₁₂, hcall₂, hcall₂₁, hsame⟩ := hcommute hagain₁ hagain₂
  have hfirst : ∃ h', call addAda (Database.startedOn .migrated) = .ok (.version ⟨1⟩) h' := ⟨_, rfl⟩
  have hsecond : ∃ h', call addLdap (Database.startedOn .migrated) = .ok (.version ⟨1⟩) h' := ⟨_, rfl⟩
  obtain ⟨_, hfirst⟩ := hfirst
  obtain ⟨_, hsecond⟩ := hsecond
  obtain ⟨rfl, -⟩ := ended_eq_ok.mp (hcall₁.symm.trans hfirst)
  obtain ⟨rfl, -⟩ := ended_eq_ok.mp (hcall₂.symm.trans hsecond)
  exact ⟨h₁, h₂, h₁₂, h₂₁, hcall₁, hcall₁₂, hcall₂, hcall₂₁, hsame⟩

end Service

end AccessStore
