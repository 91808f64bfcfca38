/-
What an object says that could be read.

A record is made of the members of an object one by one, in whatever order they come, and each of them
sets one part of it.  Seen from the end it does not matter in which order: a part is what the one member
of its name says, or, where there is no such member, what it was at the start.  `Gives` says so, and
`Schema.gives` shows it of every part that one field sets and no other does, `Schema.Sets`.

The induction is over the members with the draft so far.  A name that has been given does not come
again, so from there on the part stays.
-/
import Mathlib.Data.List.Nodup
import Mathlib.Data.List.Perm.Subperm
import AccessStore.Json.Schema

namespace AccessStore.Json

/-- What went well in two steps went well in each. -/
theorem bind_eq_ok {ε α β : Type} {x : Except ε α} {f : α → Except ε β} {b : β} :
    x >>= f = .ok b ↔ ∃ a, x = .ok a ∧ f a = .ok b := by
  cases x <;> simp [bind, Except.bind]

/-- What went wrong in two steps went wrong in the first, or else in the second. -/
theorem bind_eq_error {ε α β : Type} {x : Except ε α} {f : α → Except ε β} {e : ε} :
    x >>= f = .error e ↔ x = .error e ∨ ∃ a, x = .ok a ∧ f a = .error e := by
  cases x <;> simp [bind, Except.bind]

theorem map_eq_ok {ε α β : Type} {x : Except ε α} {f : α → β} {b : β} :
    x.map f = .ok b ↔ ∃ a, x = .ok a ∧ f a = b := by
  cases x <;> simp [Except.map]

/-! ### Members by name -/

/-- There is no member of this name. -/
def Absent (members : List Member) (name : String) : Prop := ∀ m ∈ members, m.1 ≠ some name

/-- There is one member of this name, and this is its value. -/
def Only (members : List Member) (name : String) (node : Node) : Prop :=
  members.filter (·.1 = some name) = [(some name, node)]

section Members

variable {m : Member} {rest members members' : List Member} {name : String} {node node' : Node}

theorem absent_iff_filter : Absent members name ↔ members.filter (·.1 = some name) = [] := by
  simp [Absent, List.filter_eq_nil_iff]

theorem absent_cons : Absent (m :: rest) name ↔ m.1 ≠ some name ∧ Absent rest name :=
  List.forall_mem_cons

theorem only_cons_ne (h : m.1 ≠ some name) : Only (m :: rest) name node ↔ Only rest name node := by
  rw [Only, List.filter_cons_of_neg (by simpa using h), Only]

theorem only_cons_self : Only ((some name, node) :: rest) name node' ↔
    node = node' ∧ Absent rest name := by
  rw [Only, List.filter_cons_of_pos (by simp), absent_iff_filter]
  simp

/-- The only member of a name is a member. -/
theorem Only.mem (h : Only members name node) : (some name, node) ∈ members := by
  have hmem : (some name, node) ∈ members.filter (·.1 = some name) := by
    rw [h]
    exact List.mem_singleton_self _
  exact (List.mem_filter.mp hmem).1

/-- It is every member of the name. -/
theorem Only.eq_of_mem (h : Only members name node) (hmem : (some name, node') ∈ members) :
    node' = node := by
  have hfilter : (some name, node') ∈ members.filter (·.1 = some name) :=
    List.mem_filter.mpr ⟨hmem, by simp⟩
  rw [h, List.mem_singleton] at hfilter
  exact (Prod.mk.inj hfilter).2

theorem Absent.perm (h : Absent members name) (hperm : members.Perm members') : Absent members' name := by
  intro m hm
  exact h m (hperm.mem_iff.mpr hm)

theorem Only.perm (h : Only members name node) (hperm : members.Perm members') : Only members' name node := by
  have hfilter := hperm.filter fun m => m.1 = some name
  rw [show members.filter (fun m => m.1 = some name) = _ from h] at hfilter
  exact (List.singleton_perm.mp hfilter).symm

/-- Members that are the only ones of their names have different names. -/
theorem nodup_of_only (h : ∀ m ∈ members, ∃ name, m.1 = some name ∧ Only members name m.2) :
    (members.map (·.1)).Nodup := by
  rw [List.nodup_iff_count_le_one]
  intro name?
  by_cases hmem : name? ∈ members.map (·.1)
  · obtain ⟨m, hm, rfl⟩ := List.mem_map.mp hmem
    obtain ⟨name, hname, honly⟩ := h m hm
    have hcount : (members.map (·.1)).count (some name) = (members.filter (·.1 = some name)).length := by
      rw [List.count_eq_countP, List.countP_map, List.countP_eq_length_filter]
      exact congrArg List.length (List.filter_congr fun m _ => beq_eq_decide ..)
    rw [hname, hcount, honly]
    exact Nat.le_refl 1
  · rw [List.count_eq_zero_of_not_mem hmem]
    exact Nat.zero_le 1

/-- Where each of these names has one member, there are no others exactly if there are as many members as
names. -/
theorem all_named_iff_length {names : List String} (hnodup : names.Nodup)
    (honly : ∀ name ∈ names, ∃ node, Only members name node) :
    (∀ m ∈ members, ∃ name ∈ names, m.1 = some name) ↔ members.length = names.length := by
  have hsomes : (names.map some).Nodup := hnodup.map fun _ _ h => Option.some.inj h
  have hthere : names.map some ⊆ members.map (·.1) := by
    intro name? hmem
    obtain ⟨name, hname, rfl⟩ := List.mem_map.mp hmem
    obtain ⟨node, hnode⟩ := honly name hname
    exact List.mem_map.mpr ⟨_, hnode.mem, rfl⟩
  constructor
  · intro hall
    have hnamed : members.map (·.1) ⊆ names.map some := by
      intro name? hname
      obtain ⟨m, hm, rfl⟩ := List.mem_map.mp hname
      obtain ⟨name, hname, hm⟩ := hall m hm
      exact List.mem_map.mpr ⟨name, hname, hm.symm⟩
    have honce : (members.map (·.1)).Nodup := by
      refine nodup_of_only fun m hm => ?_
      obtain ⟨name, hname, hown⟩ := hall m hm
      obtain ⟨node, hnode⟩ := honly name hname
      obtain ⟨own, value⟩ := m
      obtain rfl : own = some name := hown
      rw [← hnode.eq_of_mem hm] at hnode
      exact ⟨name, rfl, hnode⟩
    have hperm := (List.subperm_of_subset honce hnamed).antisymm (List.subperm_of_subset hsomes hthere)
    simpa using hperm.length_eq
  · intro hlength m hm
    have hperm := (List.subperm_of_subset hsomes hthere).perm_of_length_le (by simp [hlength])
    obtain ⟨name, hname, hm⟩ := List.mem_map.mp (hperm.mem_iff.mpr (List.mem_map_of_mem hm))
    exact ⟨name, hname, hm.symm⟩

end Members

/-- The members say that a part has this value: the one of this name does, or there is none and the part
is what it is without. -/
inductive Gives {α : Type} (members : List Member) (name : String) (d : Decoder α) (default : α) :
    α → Prop
  | said {node : Node} {value : α} (h : Only members name node) (hread : d node = .ok value) :
      Gives members name d default value
  | unsaid (h : Absent members name) : Gives members name d default default

theorem Gives.cons_ne {α : Type} {m : Member} {rest : List Member} {name : String} {d : Decoder α}
    {default value : α} (hm : m.1 ≠ some name) (h : Gives rest name d default value) :
    Gives (m :: rest) name d default value := by
  cases h with
  | said honly hread => exact .said ((only_cons_ne hm).mpr honly) hread
  | unsaid habsent => exact .unsaid (absent_cons.mpr ⟨hm, habsent⟩)

section Gives

variable {α : Type} {members members' : List Member} {name : String} {node : Node} {d : Decoder α}
  {default value value' : α}

theorem Gives.perm (h : Gives members name d default value) (hperm : members.Perm members') :
    Gives members' name d default value := by
  cases h with
  | said honly hread => exact .said (honly.perm hperm) hread
  | unsaid habsent => exact .unsaid (habsent.perm hperm)

/-- Where there is a member of the name, it is the only one, and it says the value. -/
theorem Gives.of_mem (h : Gives members name d default value) (hmem : (some name, node) ∈ members) :
    Only members name node ∧ d node = .ok value := by
  cases h with
  | said honly hread =>
      rw [honly.eq_of_mem hmem]
      exact ⟨honly, hread⟩
  | unsaid habsent => exact absurd rfl (habsent _ hmem)

/-- Members do not say two values. -/
theorem Gives.unique (h : Gives members name d default value) (h' : Gives members name d default value') :
    value = value' := by
  cases h with
  | said honly hread =>
      obtain ⟨-, hread'⟩ := h'.of_mem honly.mem
      exact Except.ok.inj (hread.symm.trans hread')
  | unsaid habsent =>
      cases h' with
      | said honly _ => exact absurd rfl (habsent _ honly.mem)
      | unsaid _ => rfl

end Gives

/-! ### Records -/

namespace Schema

variable {ρ α : Type} {s : Schema ρ} {draft draft' : Draft ρ} {m : Member} {members : List Member}

/-- The field of this name, and no other, sets this part of the record, to what its value says. -/
structure Sets (s : Schema ρ) (name : String) (d : Decoder α) (part : ρ → α) : Prop where
  own : ∀ field node update r, s.field? name = some field → field.read node = .ok update →
    d node = .ok (part (update r))
  others : ∀ other field node update r, other ≠ name → s.field? other = some field →
    field.read node = .ok update → part (update r) = part r

/-- What taking in a member comes to: a field is updated that was not given before, or a name of no field is
passed over. -/
theorem member_cases (hok : s.member draft m = .ok draft') :
    (∃ name field update, m.1 = some name ∧ s.field? name = some field ∧ name ∉ draft.given ∧
      field.read m.2 = .ok update ∧ draft' = ⟨update draft.record, name :: draft.given⟩) ∨
    ∃ name, m.1 = some name ∧ s.field? name = none ∧ s.strict = false ∧ m.2.isWhole = true ∧
      draft' = draft := by
  obtain ⟨_ | name, node⟩ := m
  · cases hok
  · obtain ⟨_, hname, hok⟩ := bind_eq_ok.mp hok
    obtain rfl := Except.ok.inj hname
    cases hfield : s.field? name with
    | none =>
        simp only [hfield] at hok
        split at hok
        · cases hok
        · rename_i hlenient
          split at hok
          · rename_i hwhole
            exact .inr ⟨name, rfl, hfield, by simpa using hlenient, hwhole, (Except.ok.inj hok).symm⟩
          · cases hok
    | some field =>
        simp only [hfield] at hok
        split at hok
        · cases hok
        · rename_i hnew
          obtain ⟨update, hread, hdraft⟩ := bind_eq_ok.mp hok
          exact .inl ⟨name, field, update, rfl, hfield, hnew, hread, (Except.ok.inj hdraft).symm⟩

/-- Where names of no field are refused, none is passed over. -/
theorem member_ok (hstrict : s.strict = true) (hok : s.member draft m = .ok draft') :
    ∃ name field update, m.1 = some name ∧ s.field? name = some field ∧ name ∉ draft.given ∧
      field.read m.2 = .ok update ∧ draft' = ⟨update draft.record, name :: draft.given⟩ := by
  rcases member_cases hok with hfield | ⟨name, -, -, hlenient, -⟩
  · exact hfield
  · rw [hstrict] at hlenient
    cases hlenient

/-- The members are all of fields. -/
theorem known_of_foldlM (hstrict : s.strict = true) (hok : members.foldlM s.member draft = .ok draft') :
    ∀ m ∈ members, ∃ field ∈ s.fields, m.1 = some field.name := by
  induction members generalizing draft with
  | nil => simp
  | cons m rest ih =>
      rw [List.foldlM_cons] at hok
      obtain ⟨draft₁, hm, hrest⟩ := bind_eq_ok.mp hok
      obtain ⟨name, field, update, hname, hfield, -⟩ := member_ok hstrict hm
      have hnamed : field.name = name := by simpa using List.find?_some hfield
      refine List.forall_mem_cons.mpr ⟨⟨field, List.mem_of_find?_eq_some hfield, ?_⟩, ih hrest⟩
      rw [hname, hnamed]

/-- A part that has been given stays and is not given again; one that has not is what the members say. -/
theorem gives_of_foldlM {name : String} {d : Decoder α} {part : ρ → α} (hstrict : s.strict = true)
    (hsets : s.Sets name d part) (hok : members.foldlM s.member draft = .ok draft') :
    (name ∈ draft.given → Absent members name ∧ part draft'.record = part draft.record) ∧
      (name ∉ draft.given → Gives members name d (part draft.record) (part draft'.record)) := by
  induction members generalizing draft with
  | nil =>
      obtain rfl : draft = draft' := Except.ok.inj hok
      have habsent : Absent [] name := by simp [Absent]
      exact ⟨fun _ => ⟨habsent, rfl⟩, fun _ => .unsaid habsent⟩
  | cons m rest ih =>
      rw [List.foldlM_cons] at hok
      obtain ⟨draft₁, hm, hrest⟩ := bind_eq_ok.mp hok
      obtain ⟨own, node⟩ := m
      obtain ⟨other, field, update, rfl, hfield, hnew, hread, rfl⟩ := member_ok hstrict hm
      obtain ⟨hgiven, hopen⟩ := ih hrest
      by_cases hname : other = name
      · subst hname
        refine ⟨fun hgiven => absurd hgiven hnew, fun _ => ?_⟩
        obtain ⟨habsent, hstays⟩ := hgiven List.mem_cons_self
        rw [hstays]
        exact .said (only_cons_self.mpr ⟨rfl, habsent⟩) (hsets.own field node update _ hfield hread)
      · have hne : (some other, node).1 ≠ some name := fun h => hname (Option.some.inj h)
        have hkept := hsets.others other field node update draft.record hname hfield hread
        rw [hkept] at hgiven hopen
        constructor
        · intro h
          obtain ⟨habsent, hstays⟩ := hgiven (List.mem_cons_of_mem _ h)
          exact ⟨absent_cons.mpr ⟨hne, habsent⟩, hstays⟩
        · intro h
          refine (hopen ?_).cons_ne hne
          simp [Ne.symm hname, h]

/-- A record that was read from an object, and the draft it was in the end. -/
theorem ofMembers_ok {ending : Ending} {r : ρ} (hok : s.ofMembers members ending = .ok r) :
    ending = .closed ∧ ∃ draft, members.foldlM s.member ⟨s.start, []⟩ = .ok draft ∧ draft.record = r := by
  obtain ⟨draft, hfold, hend⟩ := bind_eq_ok.mp hok
  by_cases hclosed : ending = .closed
  · rw [if_pos hclosed] at hend
    split at hend
    · cases hend
    · exact ⟨hclosed, draft, hfold, Except.ok.inj hend⟩
  · rw [if_neg hclosed] at hend
    cases hend

/-- **A part of a record is what the object says, or what it is without.** -/
theorem gives {name : String} {d : Decoder α} {part : ρ → α} {ending : Ending} {r : ρ}
    (hstrict : s.strict = true) (hsets : s.Sets name d part) (hok : s.ofMembers members ending = .ok r) :
    Gives members name d (part s.start) (part r) := by
  obtain ⟨-, draft, hfold, rfl⟩ := ofMembers_ok hok
  exact (gives_of_foldlM hstrict hsets hfold).2 (by simp)

/-! ### What holds of every record -/

/-- Whatever these fields are given, they keep a property of records. -/
def Keeps (P : ρ → Prop) (fields : List (Field ρ)) : Prop :=
  ∀ field ∈ fields, ∀ node update r, field.read node = .ok update → P r → P (update r)

variable {P : ρ → Prop}

theorem Keeps.of_ofItems {fields : List (Field ρ)} {nodes : List Node} {ending : Ending} {before r : ρ}
    (h : Keeps P fields) (hbefore : P before) (hok : ofItems before ending fields nodes = .ok r) :
    P r := by
  induction fields generalizing nodes before with
  | nil =>
      cases nodes with
      | nil =>
          rw [ofItems] at hok
          split at hok
          · rwa [← Except.ok.inj hok]
          · cases hok
      | cons node nodes => cases hok
  | cons field fields ih =>
      obtain ⟨hfield, hrest⟩ := List.forall_mem_cons.mp h
      cases nodes with
      | nil =>
          rw [ofItems] at hok
          split at hok
          · cases hok
          · split at hok
            · cases hok
            · exact ih hrest hbefore hok
      | cons node nodes =>
          obtain ⟨update, hread, hok⟩ := bind_eq_ok.mp hok
          exact ih hrest (hfield node update before hread hbefore) hok

/-- A member that is taken in keeps it, and so does one that is passed over. -/
theorem Keeps.of_member (h : Keeps P s.fields) (hdraft : P draft.record)
    (hok : s.member draft m = .ok draft') : P draft'.record := by
  rcases member_cases hok with ⟨name, field, update, -, hfield, -, hread, rfl⟩ | ⟨-, -, -, -, -, rfl⟩
  · exact h field (List.mem_of_find?_eq_some hfield) _ update _ hread hdraft
  · exact hdraft

theorem Keeps.of_foldlM (h : Keeps P s.fields) (hdraft : P draft.record)
    (hok : members.foldlM s.member draft = .ok draft') : P draft'.record := by
  induction members generalizing draft with
  | nil => rwa [← Except.ok.inj hok]
  | cons m rest ih =>
      rw [List.foldlM_cons] at hok
      obtain ⟨draft₁, hm, hrest⟩ := bind_eq_ok.mp hok
      exact ih (h.of_member hdraft hm) hrest

/-- What holds at the start and is kept by every field holds of every record that was read, be it from
an object or from a list. -/
theorem Keeps.of_decode {node : Node} {r : ρ} (h : Keeps P s.fields) (hstart : P s.start)
    (hok : s.decode node = .ok r) : P r := by
  cases node with
  | object members ending =>
      obtain ⟨-, draft, hfold, rfl⟩ := ofMembers_ok hok
      exact h.of_foldlM hstart hfold
  | array items ending => exact h.of_ofItems hstart hok
  | _ => cases hok

end Schema

end AccessStore.Json
