/-
Members in any order.

An object is taken in member by member, and each field that is given does something to the record under
construction.  `Schema.ofMembers_ok_iff` says of the whole walk what it comes to: what the members give, each
field at most once and every required one, is done to the record one after the other.  Where the fields of a
schema are independent, `Schema.Independent`, it does not matter in which order.  So the members can be
permuted, and then a member can be taken as the first one or the last, which makes it plain what one member
more or less, or with another value, amounts to.

Only schemas are considered that pass names of no field over.
-/
import Mathlib.Data.List.Nodup
import Mathlib.Data.List.Pairwise
import Mathlib.Data.List.Perm.Basic
import AccessStore.Proofs.Members

namespace AccessStore.Json

/-! ### Independent fields -/

section Fields

variable {ρ α β : Type} {f g : Field ρ}

/-- What two fields are given can be put into a record in either order. -/
def Field.Commute (f g : Field ρ) : Prop :=
  ∀ a b u v, f.read a = .ok u → g.read b = .ok v → ∀ r, u (v r) = v (u r)

theorem Field.Commute.symm (h : f.Commute g) : g.Commute f :=
  fun a b u v hu hv r => (h b a v u hv hu r).symm

instance : Std.Symm (@Field.Commute ρ) := ⟨fun _ _ => Field.Commute.symm⟩

/-- Fields that set different parts commute. -/
theorem Field.commute_of_sets {d : Decoder α} {e : Decoder β} {set : α → ρ → ρ} {put : β → ρ → ρ}
    (hf : f.read = fun node => (d node).map set) (hg : g.read = fun node => (e node).map put)
    (h : ∀ x y r, set x (put y r) = put y (set x r)) : f.Commute g := by
  intro a b u v hu hv r
  rw [hf] at hu
  rw [hg] at hv
  obtain ⟨x, -, rfl⟩ := map_eq_ok.mp hu
  obtain ⟨y, -, rfl⟩ := map_eq_ok.mp hv
  exact h x y r

end Fields

namespace Schema

variable {ρ : Type} {s : Schema ρ} {draft draft' : Draft ρ} {members members' : List Member} {name : String}
  {field : Field ρ} {node : Node} {update : ρ → ρ} {updates updates' : List (String × (ρ → ρ))} {r : ρ}

/-- Any two fields of a schema can be given in either order. -/
def Independent (s : Schema ρ) : Prop := s.fields.Pairwise Field.Commute

/-! ### What members come to -/

/-- The members, in order, update the fields of these names; members of other names are whole and are passed
over. -/
inductive Takes (s : Schema ρ) : List Member → List (String × (ρ → ρ)) → Prop
  | nil : Takes s [] []
  | field {name : String} {field : Field ρ} {node : Node} {update : ρ → ρ} {members : List Member}
      {updates : List (String × (ρ → ρ))} (hfield : s.field? name = some field)
      (hread : field.read node = .ok update) (h : Takes s members updates) :
      Takes s ((some name, node) :: members) ((name, update) :: updates)
  | other {name : String} {node : Node} {members : List Member} {updates : List (String × (ρ → ρ))}
      (hother : s.field? name = none) (hwhole : node.isWhole = true) (h : Takes s members updates) :
      Takes s ((some name, node) :: members) updates

/-- The names of the fields that are updated. -/
abbrev names (updates : List (String × (ρ → ρ))) : List String := updates.map (·.1)

/-- The record once the updates are done. -/
def updated (updates : List (String × (ρ → ρ))) (r : ρ) : ρ := updates.foldl (fun r u => u.2 r) r

theorem member_field (hfield : s.field? name = some field) :
    s.member draft (some name, node) = if name ∈ draft.given then .error (.duplicateField name)
      else (field.read node).map fun update => ⟨update draft.record, name :: draft.given⟩ := by
  simp only [member, Decoder.name, bind, Except.bind, hfield]
  split
  · rfl
  · cases field.read node <;> rfl

theorem member_other (hlenient : s.strict = false) (hother : s.field? name = none) :
    s.member draft (some name, node) = if node.isWhole then .ok draft else .error .malformed := by
  simp only [member, Decoder.name, bind, Except.bind, hother, hlenient]
  rfl

/-- Members that were taken in came to updates of fields that had not been given. -/
theorem takes_of_foldlM (hok : members.foldlM s.member draft = .ok draft') :
    ∃ updates, s.Takes members updates ∧ (names updates).Nodup ∧
      (∀ name ∈ names updates, name ∉ draft.given) ∧
      draft' = ⟨updated updates draft.record, (names updates).reverse ++ draft.given⟩ := by
  induction members generalizing draft with
  | nil => exact ⟨[], .nil, .nil, by simp, (Except.ok.inj hok).symm⟩
  | cons m rest ih =>
      rw [List.foldlM_cons] at hok
      obtain ⟨draft₁, hm, hrest⟩ := bind_eq_ok.mp hok
      obtain ⟨updates, htakes, honce, hnew, rfl⟩ := ih hrest
      obtain ⟨own, node⟩ := m
      rcases member_cases hm with ⟨name, field, update, rfl, hfield, hgiven, hread, rfl⟩ |
        ⟨name, rfl, hother, -, hwhole, rfl⟩
      · have hname : name ∉ names updates := fun hmem => hnew name hmem List.mem_cons_self
        refine ⟨(name, update) :: updates, .field hfield hread htakes, ?_, ?_, ?_⟩
        · exact List.nodup_cons.mpr ⟨hname, honce⟩
        · refine List.forall_mem_cons.mpr ⟨hgiven, ?_⟩
          intro other hother hmem
          exact hnew other hother (List.mem_cons_of_mem _ hmem)
        · simp [updated]
      · exact ⟨updates, .other hother hwhole htakes, honce, hnew, rfl⟩

/-- Members that come to such updates are taken in. -/
theorem foldlM_of_takes (draft : Draft ρ) (hlenient : s.strict = false) (h : s.Takes members updates)
    (honce : (names updates).Nodup) (hnew : ∀ name ∈ names updates, name ∉ draft.given) :
    members.foldlM s.member draft
      = .ok ⟨updated updates draft.record, (names updates).reverse ++ draft.given⟩ := by
  induction h generalizing draft with
  | nil => rfl
  | @field name field node update members updates hfield hread _ ih =>
      obtain ⟨hname, honce⟩ := List.nodup_cons.mp honce
      obtain ⟨hgiven, hnew⟩ := List.forall_mem_cons.mp hnew
      have hm : s.member draft (some name, node) = .ok ⟨update draft.record, name :: draft.given⟩ := by
        rw [member_field hfield, if_neg hgiven, hread]
        rfl
      rw [List.foldlM_cons, hm]
      refine (ih _ honce ?_).trans ?_
      · intro other hother hmem
        rcases List.mem_cons.mp hmem with rfl | hmem
        · exact hname hother
        · exact hnew other hother hmem
      · simp [updated]
  | @other name node members updates hother hwhole _ ih =>
      rw [List.foldlM_cons, member_other hlenient hother, if_pos hwhole]
      exact ih _ honce hnew

/-- The members come to these updates, each of another field, and they make this record. -/
structure Makes (s : Schema ρ) (members : List Member) (updates : List (String × (ρ → ρ))) (r : ρ) :
    Prop where
  takes : s.Takes members updates
  /-- No field is given twice. -/
  once : (names updates).Nodup
  /-- Every field is given that must be. -/
  complete : ∀ field ∈ s.fields, field.required = true → field.name ∈ names updates
  record : updated updates s.start = r

theorem missed?_eq_none_iff {given : List String} : s.missed? given = none ↔
    ∀ field ∈ s.fields, field.required = true → field.name ∈ given := by
  simp [missed?]

/-- **A record is made of what its members come to.** -/
theorem ofMembers_ok_iff (hlenient : s.strict = false) :
    s.ofMembers members .closed = .ok r ↔ ∃ updates, s.Makes members updates r := by
  constructor
  · intro hok
    obtain ⟨draft, hfold, hend⟩ := bind_eq_ok.mp hok
    obtain ⟨updates, htakes, honce, -, rfl⟩ := takes_of_foldlM hfold
    rw [if_pos rfl] at hend
    split at hend
    · cases hend
    · rename_i hmissed
      refine ⟨updates, htakes, honce, ?_, Except.ok.inj hend⟩
      simpa using missed?_eq_none_iff.mp hmissed
  · rintro ⟨updates, htakes, honce, hcomplete, rfl⟩
    have hfold := foldlM_of_takes ⟨s.start, []⟩ hlenient htakes honce (by simp)
    have hmissed : s.missed? ((names updates).reverse ++ []) = none :=
      missed?_eq_none_iff.mpr (by simpa using hcomplete)
    simp only [ofMembers, hfold, bind, Except.bind, if_pos, hmissed]
    rfl

/-- The first of the members come to the first of the updates. -/
theorem Takes.of_append (h : s.Takes (members ++ members') updates) :
    ∃ updates₁ updates₂, updates = updates₁ ++ updates₂ ∧ s.Takes members updates₁ := by
  induction members generalizing updates with
  | nil => exact ⟨[], updates, rfl, .nil⟩
  | cons m rest ih =>
      cases h with
      | field hfield hread h =>
          obtain ⟨updates₁, updates₂, rfl, hrest⟩ := ih h
          exact ⟨_ :: updates₁, updates₂, rfl, .field hfield hread hrest⟩
      | other hother hwhole h =>
          obtain ⟨updates₁, updates₂, rfl, hrest⟩ := ih h
          exact ⟨updates₁, updates₂, rfl, .other hother hwhole hrest⟩

/-! ### Members in another order -/

/-- Members in another order come to the same updates in another order. -/
theorem Takes.perm (h : s.Takes members updates) (hperm : members.Perm members') :
    ∃ updates', updates.Perm updates' ∧ s.Takes members' updates' := by
  induction hperm generalizing updates with
  | nil => exact ⟨updates, .refl _, h⟩
  | cons m _ ih =>
      cases h with
      | @field name _ _ update _ _ hfield hread h =>
          obtain ⟨updates', hupdates, h'⟩ := ih h
          exact ⟨(name, update) :: updates', hupdates.cons _, .field hfield hread h'⟩
      | other hother hwhole h =>
          obtain ⟨updates', hupdates, h'⟩ := ih h
          exact ⟨updates', hupdates, .other hother hwhole h'⟩
  | swap m m' rest =>
      cases h with
      | field hfield hread h =>
          cases h with
          | field hfield' hread' h =>
              exact ⟨_, .swap _ _ _, .field hfield' hread' (.field hfield hread h)⟩
          | other hother hwhole h => exact ⟨_, .refl _, .other hother hwhole (.field hfield hread h)⟩
      | other hother hwhole h =>
          cases h with
          | field hfield hread h => exact ⟨_, .refl _, .field hfield hread (.other hother hwhole h)⟩
          | other hother' hwhole' h => exact ⟨_, .refl _, .other hother' hwhole' (.other hother hwhole h)⟩
  | trans _ _ ih ih' =>
      obtain ⟨updates₁, hupdates, h₁⟩ := ih h
      obtain ⟨updates₂, hupdates', h₂⟩ := ih' h₁
      exact ⟨updates₂, hupdates.trans hupdates', h₂⟩

/-- Every update is what a field of the schema was given. -/
theorem Takes.exists_read (h : s.Takes members updates) {u : String × (ρ → ρ)} (hu : u ∈ updates) :
    ∃ field node, s.field? u.1 = some field ∧ field.read node = .ok u.2 := by
  induction h with
  | nil => cases hu
  | @field _ field node _ _ _ hfield hread _ ih =>
      rcases List.mem_cons.mp hu with rfl | hu
      · exact ⟨field, node, hfield, hread⟩
      · exact ih hu
  | other _ _ _ ih => exact ih hu

/-- The field of a name has it. -/
theorem name_of_field? (h : s.field? name = some field) : field.name = name := by
  simpa using List.find?_some h

/-- It does not matter in which order independent fields are updated. -/
theorem updated_perm (hs : s.Independent) (h : s.Takes members updates) (honce : (names updates).Nodup)
    (hperm : updates.Perm updates') (r : ρ) : updated updates r = updated updates' r := by
  refine hperm.foldl_eq' ?_ r
  intro u hu v hv r
  by_cases hname : u.1 = v.1
  · -- There is only one update of a name.
    rw [List.inj_on_of_nodup_map honce hu hv hname]
  · obtain ⟨f, a, hf, hfu⟩ := h.exists_read hu
    obtain ⟨g, b, hg, hgv⟩ := h.exists_read hv
    have hne : f ≠ g := by
      rintro rfl
      exact hname ((name_of_field? hf).symm.trans (name_of_field? hg))
    have hcommute : f.Commute g :=
      List.Pairwise.forall hs (List.mem_of_find?_eq_some hf) (List.mem_of_find?_eq_some hg) hne
    exact (hcommute a b u.2 v.2 hfu hgv r).symm

/-- The first field can as well be updated in the end. -/
theorem updated_cons (hs : s.Independent) (h : s.Takes members ((name, update) :: updates))
    (honce : (names ((name, update) :: updates)).Nodup) :
    updated ((name, update) :: updates) r = update (updated updates r) := by
  rw [updated_perm hs h honce (List.perm_append_singleton _ _).symm, updated, List.foldl_append]
  rfl

theorem Makes.perm (hs : s.Independent) (h : s.Makes members updates r) (hperm : members.Perm members') :
    ∃ updates', s.Makes members' updates' r := by
  obtain ⟨updates', hupdates, htakes⟩ := h.takes.perm hperm
  have hnames : (names updates).Perm (names updates') := hupdates.map _
  refine ⟨updates', htakes, hnames.nodup_iff.mp h.once, ?_, ?_⟩
  · intro field hfield hrequired
    exact hnames.mem_iff.mp (h.complete field hfield hrequired)
  · rw [← updated_perm hs h.takes h.once hupdates]
    exact h.record

/-- **Members make the same record in any order.** -/
theorem ofMembers_perm (hlenient : s.strict = false) (hs : s.Independent) (hperm : members.Perm members') :
    s.ofMembers members .closed = .ok r ↔ s.ofMembers members' .closed = .ok r := by
  rw [ofMembers_ok_iff hlenient, ofMembers_ok_iff hlenient]
  constructor
  · rintro ⟨updates, h⟩
    exact h.perm hs hperm
  · rintro ⟨updates, h⟩
    exact h.perm hs hperm.symm

/-! ### One member more -/

/-- A field is updated if there is a member of its name. -/
theorem Takes.mem_names_iff (h : s.Takes members updates) (hfield : s.field? name = some field) :
    name ∈ names updates ↔ ¬ Absent members name := by
  induction h with
  | nil => simp [Absent]
  | @field other _ node _ members updates _ _ _ ih =>
      rw [absent_cons, not_and_or, ← ih, names, List.map_cons, List.mem_cons]
      simp [eq_comm]
  | @other other node members updates hother _ _ ih =>
      have hne : other ≠ name := by
        rintro rfl
        rw [hfield] at hother
        cases hother
      rw [absent_cons, not_and_or, ← ih]
      simp [hne]

section OneMore

variable (hlenient : s.strict = false) (hs : s.Independent) (before after : List Member)
include hlenient

/-- A field is not given a second time. -/
theorem ofMembers_twice (hfield : s.field? name = some field) (htwice : ¬ Absent (before ++ after) name) :
    s.ofMembers (before ++ (some name, node) :: after) .closed ≠ .ok r := by
  intro hok
  obtain ⟨updates, h⟩ := (ofMembers_ok_iff hlenient).mp hok
  obtain ⟨updates', hupdates, htakes⟩ := h.takes.perm List.perm_middle
  have honce : (names updates').Nodup := (hupdates.map _).nodup_iff.mp h.once
  cases htakes with
  | other hother _ _ =>
      rw [hfield] at hother
      cases hother
  | field _ _ htakes =>
      exact (List.nodup_cons.mp honce).1 ((htakes.mem_names_iff hfield).mpr htwice)

include hs

/-- A member of another name makes no difference. -/
theorem ofMembers_insert_other (hother : s.field? name = none) (hwhole : node.isWhole = true)
    (hok : s.ofMembers (before ++ after) .closed = .ok r) :
    s.ofMembers (before ++ (some name, node) :: after) .closed = .ok r := by
  rw [ofMembers_perm hlenient hs List.perm_middle]
  obtain ⟨updates, h⟩ := (ofMembers_ok_iff hlenient).mp hok
  exact (ofMembers_ok_iff hlenient).mpr
    ⟨updates, .other hother hwhole h.takes, h.once, h.complete, h.record⟩

/-- A field that is given its default might as well be left out. -/
theorem ofMembers_drop (hfield : s.field? name = some field)
    (hoptional : ∀ other ∈ s.fields, other.required = true → other.name ≠ name)
    (hread : field.read node = .ok update) (hdefault : update s.start = s.start)
    (hok : s.ofMembers (before ++ (some name, node) :: after) .closed = .ok r) :
    s.ofMembers (before ++ after) .closed = .ok r := by
  rw [ofMembers_perm hlenient hs List.perm_middle] at hok
  obtain ⟨updates, h⟩ := (ofMembers_ok_iff hlenient).mp hok
  obtain ⟨htakes, honce, hcomplete, hrecord⟩ := h
  cases htakes with
  | other hother _ _ =>
      rw [hfield] at hother
      cases hother
  | @field _ field' _ update' _ updates hfield' hread' htakes =>
      obtain rfl := Option.some.inj (hfield.symm.trans hfield')
      obtain rfl := Except.ok.inj (hread.symm.trans hread')
      refine (ofMembers_ok_iff hlenient).mpr ⟨updates, htakes, (List.nodup_cons.mp honce).2, ?_, ?_⟩
      · intro other hother hrequired
        exact (List.mem_cons.mp (hcomplete other hother hrequired)).resolve_left
          (hoptional other hother hrequired)
      · rw [← hrecord]
        show _ = updated updates (update s.start)
        rw [hdefault]

/-- The field of one member is updated in the end, wherever the member stands. -/
theorem ofMembers_given (hfield : s.field? name = some field) (htakes : s.Takes (before ++ after) updates)
    (honce : (name :: names updates).Nodup)
    (hcomplete : ∀ other ∈ s.fields, other.required = true → other.name ∈ name :: names updates) :
    s.ofMembers (before ++ (some name, node) :: after) .closed
      = (field.read node).map fun update => update (updated updates s.start) := by
  cases hread : field.read node with
  | ok update =>
      have htakes' := htakes.field hfield hread
      show _ = Except.ok (update (updated updates s.start))
      rw [ofMembers_perm hlenient hs List.perm_middle, ← updated_cons hs htakes' honce]
      exact (ofMembers_ok_iff hlenient).mpr ⟨_, htakes', honce, hcomplete, rfl⟩
  | error fault =>
      -- The members before are taken in, so it is this one that is told of.
      obtain ⟨updates₁, updates₂, rfl, hbefore⟩ := htakes.of_append
      obtain ⟨hnew, honce⟩ := List.nodup_cons.mp honce
      rw [names, List.map_append] at hnew honce
      have hfold := foldlM_of_takes ⟨s.start, []⟩ hlenient hbefore (List.nodup_append.mp honce).1 (by simp)
      have hname : name ∉ (names updates₁).reverse ++ [] := by
        simpa using fun hmem => hnew (List.mem_append_left _ hmem)
      have hm : s.member ⟨updated updates₁ s.start, (names updates₁).reverse ++ []⟩ (some name, node)
          = .error fault := by
        rw [member_field hfield, if_neg hname, hread]
        rfl
      rw [ofMembers, List.foldlM_append, hfold]
      simp only [bind, Except.bind, List.foldlM_cons, hm]
      rfl

/-- A field that was given can be given another value. -/
theorem ofMembers_exchange (hfield : s.field? name = some field)
    (hok : s.ofMembers (before ++ (some name, node) :: after) .closed = .ok r) :
    ∃ base update, field.read node = .ok update ∧ update base = r ∧
      ∀ other, s.ofMembers (before ++ (some name, other) :: after) .closed
        = (field.read other).map fun update => update base := by
  rw [ofMembers_perm hlenient hs List.perm_middle] at hok
  obtain ⟨updates, htakes, honce, hcomplete, rfl⟩ := (ofMembers_ok_iff hlenient).mp hok
  cases htakes with
  | other hother _ _ =>
      rw [hfield] at hother
      cases hother
  | field hfield' hread htakes =>
      obtain rfl := Option.some.inj (hfield.symm.trans hfield')
      exact ⟨_, _, hread, (updated_cons hs (htakes.field hfield hread) honce).symm, fun _ =>
        ofMembers_given hlenient hs before after hfield htakes honce hcomplete⟩

end OneMore

end Schema

end AccessStore.Json
