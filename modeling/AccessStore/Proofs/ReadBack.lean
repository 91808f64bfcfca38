/-
Reading back what was written.

What is kept for a record is a text, and nothing the store promises would hold if that
text could be read as anything but the record.  That it cannot is shown in three stages:
the text of a value is read as the tree of the value, `Document.ofText_render`; the
decoder of each kind reads that tree as the record; and so the payload of a record of any
kind is read as that record without its version, `Record.ofText_payload`.  No assumption
is made on the texts in a record.
-/
import AccessStore.Records
import AccessStore.Proofs.Writing

namespace AccessStore

/-! ### Lists, maps and sets of names -/

/-- Where everything listed succeeds, the whole list does. -/
theorem mapM_ok {ε α β : Type} {f : α → Except ε β} {g : α → β} {list : List α}
    (h : ∀ a ∈ list, f a = .ok (g a)) : list.mapM f = .ok (list.map g) := by
  induction list with
  | nil => rfl
  | cons a rest ih =>
      rw [List.mapM_cons, h a List.mem_cons_self, ih fun b hb => h b (List.mem_cons_of_mem _ hb)]
      rfl

namespace SortedMap

variable {κ β : Type} [Ord κ] [DecidableEq κ] [Std.TransOrd κ] [Std.LawfulEqOrd κ]

/-- Binding ascending entries one by one overrides what was bound before. -/
theorem get?_foldl_insert {entries : List (κ × β)} (h : Ascending entries) (m : SortedMap κ β) (k : κ) :
    (entries.foldl (fun m e => m.insert e.1 e.2) m).get? k = (lookup k entries).or (m.get? k) := by
  induction entries generalizing m with
  | nil => simp [lookup]
  | cons e rest ih =>
      obtain ⟨hhead, hrest⟩ := List.pairwise_cons.mp h
      rw [List.foldl_cons, ih hrest, get?_insert, lookup]
      by_cases hk : k = e.1
      · subst hk
        simp [lookup_eq_none hhead]
      · simp [hk]

/-- A map is made of its entries. -/
@[simp] theorem ofList_entries (m : SortedMap κ β) : ofList m.entries = m := by
  apply ext_get?
  intro k
  rw [ofList, get?_foldl_insert m.ascending, get?_empty, Option.or_none]
  rfl

end SortedMap

/-- A set of names is made of its names. -/
@[simp] theorem NameSet.ofList_toList (names : NameSet) : NameSet.ofList names.toList = names := by
  have hentries : names.toList.map (fun name => (name, ())) = names.entries := by
    rw [toList, SortedMap.keys, List.map_map]
    exact List.map_id'' (fun _ => rfl) _
  rw [NameSet.ofList, hentries, SortedMap.ofList_entries]

namespace Json

/-! ### Decoders -/

namespace Decoder

variable {α : Type}

@[simp] theorem text_node (s : String) : text (Value.text s).node = .ok s := rfl

@[simp] theorem flag_node (value : Bool) : flag (Value.flag value).node = .ok value := rfl

@[simp] theorem optional_node (d : Decoder α) (s : String) :
    optional d (Value.text s).node = (d (Value.text s).node).map some := rfl

@[simp] theorem names_node (names : NameSet) :
    Decoder.names (Value.texts names.toList).node = .ok names := by
  have hlist : list text (Value.texts names.toList).node = .ok names.toList := by
    rw [Value.texts, Value.node, Value.nodes_eq_map, List.map_map, list, List.mapM_map]
    simp only [Function.comp_def]
    rw [mapM_ok fun name _ => text_node name, List.map_id']
    rfl
  rw [Decoder.names, hlist]
  simp [Except.map]

@[simp] theorem properties_node (m : SortedMap String String) :
    properties (Value.object (m.entries.map fun (name, content) => (name, .text content))).node
      = .ok m := by
  have hmember (e : String × String) : ((fun (member, value) => do
      let key ← name member
      let content ← text value
      pure (key, content) : Member → Except Fault (String × String))
        (some e.1, (Value.text e.2).node)) = .ok e := rfl
  rw [Value.node, Value.memberNodes_eq_map, List.map_map, properties, List.mapM_map]
  simp only [Function.comp_def]
  rw [mapM_ok fun e _ => hmember e, List.map_id']
  simp [bind, Except.bind, pure, Except.pure]

end Decoder

/-- A record is read member by member. -/
theorem Schema.decode_node {ρ : Type} (s : Schema ρ) (members : List (String × Value)) :
    s.decode (Value.object members).node = (do
      let draft ← members.foldlM (fun draft m => s.member draft (some m.1, m.2.node)) ⟨s.start, []⟩
      match s.missed? draft.given with
      | some field => throw (.missingField field.name)
      | none => pure draft.record) := by
  rw [Value.node, Value.memberNodes_eq_map, decode, ofMembers, List.foldlM_map]
  rfl

end Json

open Json

/-! ### Records -/

/-- The version is none, or it is read back from its text. -/
def Version.IsReadable (version : Option Version) : Prop :=
  ∀ v, version = some v → Version.decode v.value.node = .ok v

theorem Version.isReadable_none : Version.IsReadable none := fun _ h => by simp at h

theorem Version.IsReadable.optional_node {v : Version} (hv : Version.IsReadable (some v)) :
    Decoder.optional Version.decode v.value.node = .ok (some v) := by
  have hread := hv v rfl
  rw [Version.value, Decoder.optional_node, ← Version.value, hread]
  rfl

@[simp] theorem UserStatus.decode_node (status : UserStatus) :
    UserStatus.decode status.value.node = .ok status := by
  cases status <;> rfl

theorem User.decode_node (u : User) (hv : Version.IsReadable u.version) :
    User.decode u.value.node = .ok u := by
  obtain ⟨id, version, firstName, lastName, email, status, password⟩ := u
  rw [User.decode, User.value, Schema.decode_node]
  -- The members that may be missing are the version and the password.
  cases version with
  | none =>
      cases password <;>
        simp [User.members, User.schema, Schema.member, Schema.field?, Schema.missed?, Field.need,
          Field.may, Decoder.name, bind, Except.bind, pure, Except.pure, Except.map]
  | some v =>
      have hopt := hv.optional_node
      cases password <;>
        simp [User.members, User.schema, Schema.member, Schema.field?, Schema.missed?, Field.need,
          Field.may, Decoder.name, bind, Except.bind, pure, Except.pure, Except.map, hopt]

theorem Role.decode_node (r : Role) (hv : Version.IsReadable r.version) :
    Role.decode r.value.node = .ok r := by
  obtain ⟨id, version, name, description, readOnly, privileges, roles⟩ := r
  rw [Role.decode, Role.value, Schema.decode_node]
  cases version with
  | none =>
      simp [Role.members, Role.schema, Schema.member, Schema.field?, Schema.missed?, Field.need,
        Field.may, Decoder.name, bind, Except.bind, pure, Except.pure, Except.map]
  | some v =>
      have hopt := hv.optional_node
      simp [Role.members, Role.schema, Schema.member, Schema.field?, Schema.missed?, Field.need,
        Field.may, Decoder.name, bind, Except.bind, pure, Except.pure, Except.map, hopt]

theorem Privilege.decode_node (p : Privilege) (hv : Version.IsReadable p.version) :
    Privilege.decode p.value.node = .ok p := by
  obtain ⟨id, version, name, description, type, readOnly, properties⟩ := p
  rw [Privilege.decode, Privilege.value, Schema.decode_node]
  cases version with
  | none =>
      simp [Privilege.members, Privilege.schema, Schema.member, Schema.field?, Schema.missed?,
        Field.need, Field.may, Decoder.name, bind, Except.bind, pure, Except.pure, Except.map]
  | some v =>
      have hopt := hv.optional_node
      simp [Privilege.members, Privilege.schema, Schema.member, Schema.field?, Schema.missed?,
        Field.need, Field.may, Decoder.name, bind, Except.bind, pure, Except.pure, Except.map, hopt]

theorem Mapping.decode_node (m : Mapping) (hv : Version.IsReadable m.version) :
    Mapping.decode m.value.node = .ok m := by
  obtain ⟨userId, source, version, roles⟩ := m
  rw [Mapping.decode, Mapping.value, Schema.decode_node]
  cases version with
  | none =>
      simp [Mapping.members, Mapping.schema, Schema.member, Schema.field?, Schema.missed?,
        Field.need, Field.may, Decoder.name, bind, Except.bind, pure, Except.pure, Except.map]
  | some v =>
      have hopt := hv.optional_node
      simp [Mapping.members, Mapping.schema, Schema.member, Schema.field?, Schema.missed?,
        Field.need, Field.may, Decoder.name, bind, Except.bind, pure, Except.pure, Except.map, hopt]

namespace Record

/-- A record of any kind is read from its tree. -/
theorem decode_node (r : Record) (hv : Version.IsReadable r.version) :
    decode r.kind r.value.node = .ok r := by
  cases r with
  | user u =>
      show (User.decode u.value.node).map user = _
      rw [User.decode_node u hv]
      rfl
  | role r =>
      show (Role.decode r.value.node).map role = _
      rw [Role.decode_node r hv]
      rfl
  | privilege p =>
      show (Privilege.decode p.value.node).map privilege = _
      rw [Privilege.decode_node p hv]
      rfl
  | mapping m =>
      show (Mapping.decode m.value.node).map mapping = _
      rw [Mapping.decode_node m hv]
      rfl

/-- A record of any kind is read from its text. -/
theorem ofText_text (r : Record) (hv : Version.IsReadable r.version) :
    ofText r.kind r.text = .ok r := by
  rw [ofText, Decoder.run, text, Document.ofText_render]
  simp only [decode_node r hv]
  rfl

/-- **The payload kept for a record is read as the record without its version.** -/
theorem ofText_payload (r : Record) :
    ofText r.kind (Records.payload r) = .ok (r.withVersion none) := by
  have hread : Version.IsReadable (r.withVersion none).version := by
    rw [version_withVersion]
    exact Version.isReadable_none
  have htext := ofText_text (r.withVersion none) hread
  rw [kind_withVersion] at htext
  exact htext

end Record

end AccessStore
