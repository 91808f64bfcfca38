/-
Records and defaults as texts, without loss.

Every record is read back from its text, with whatever characters its texts, sets and
properties are made of, and so is a document of defaults, which lists records.  Three
things follow for the store.  The row of a record gives the record back, at the version of
the row.  A text is the text of one record only: records of different kinds have members of
different names, and two of one kind would both have to be what is read from it.  And two
records share a payload only if nothing but their versions can tell them apart.
-/
import AccessStore.Defaults
import AccessStore.Proofs.VersionText

namespace AccessStore

open Json

/-! ### Lists of records -/

/-- A list is read item by item. -/
theorem Json.Decoder.list_node {α : Type} {d : Decoder α} {write : α → Value} {items : List α}
    (h : ∀ a ∈ items, d (write a).node = .ok a) :
    Decoder.list d (Value.list (items.map write)).node = .ok items := by
  rw [Value.node, Value.nodes_eq_map, List.map_map, Decoder.list, List.mapM_map]
  simp only [Function.comp_def]
  rw [mapM_ok h, List.map_id']
  rfl

namespace Record

/-- The record carries no version, or one that can be stored. -/
def IsStorable (r : Record) : Prop := ∀ v, r.version = some v → v.IsStorable

variable {r r' : Record}

theorem ofText_of_isStorable (h : r.IsStorable) : ofText r.kind r.text = .ok r :=
  ofText_text r (Version.isReadable h)

/-- **The row of a record holds the record, at the version of the row.** -/
theorem ofRow_payload (r : Record) {v : Int} (hv : 1 ≤ v) :
    Records.ofRow r.kind ⟨v, Records.payload r⟩ = .ok (r.withVersion (some ⟨v⟩)) := by
  rw [Records.ofRow, ofText_payload]
  simp only [withVersion_withVersion]
  rw [if_neg (by omega)]

/-! ### One record for a text -/

/-- The names of the members of a record's document, in order. -/
def memberNames : Record → List String
  | user u => u.members.map (·.1)
  | role r => r.members.map (·.1)
  | privilege p => p.members.map (·.1)
  | mapping m => m.members.map (·.1)

/-- A document has the names of its members, and no other document with other names is the same. -/
theorem memberNames_congr (h : r.value.node = r'.value.node) : r.memberNames = r'.memberNames := by
  have hnames (members members' : List (String × Value))
      (h : (Value.object members).node = (Value.object members').node) :
      members.map (·.1) = members'.map (·.1) := by
    rw [Value.node, Value.node, Value.memberNodes_eq_map, Value.memberNodes_eq_map] at h
    have hmembers := congrArg (List.map (·.1)) (Node.object.inj h).1
    rw [List.map_map, List.map_map] at hmembers
    have hsome := congrArg (List.filterMap id) hmembers
    simpa [List.filterMap_map, Function.comp_def] using hsome
  cases r <;> (cases r' <;> exact hnames _ _ h)

/-- The kind of a record shows in the names of its members. -/
theorem kind_eq (r : Record) :
    r.kind =
      if "userId" ∈ r.memberNames then .mapping
      else if "type" ∈ r.memberNames then .privilege
      else if "firstName" ∈ r.memberNames then .user
      else .role := by
  cases r with
  | user u =>
      obtain ⟨_, version, _, _, _, _, password⟩ := u
      cases version <;> cases password <;> simp [memberNames, User.members, kind]
  | role r =>
      obtain ⟨_, version, _, _, _, _, _⟩ := r
      cases version <;> simp [memberNames, Role.members, kind]
  | privilege p =>
      obtain ⟨_, version, _, _, _, _, _⟩ := p
      cases version <;> simp [memberNames, Privilege.members, kind]
  | mapping m =>
      obtain ⟨_, _, version, _⟩ := m
      cases version <;> simp [memberNames, Mapping.members, kind]

/-- **No two records have the same text.** -/
theorem eq_of_text (h : r.IsStorable) (h' : r'.IsStorable) (htext : r.text = r'.text) : r = r' := by
  have hnode : r.value.node = r'.value.node := by
    have hdocument := congrArg Document.ofText htext
    rw [text, text, Document.ofText_render, Document.ofText_render] at hdocument
    exact congrArg Document.root hdocument
  have hkind : r.kind = r'.kind := by
    rw [kind_eq r, kind_eq r', memberNames_congr hnode]
  have hread := ofText_of_isStorable h
  rw [htext, hkind, ofText_of_isStorable h'] at hread
  exact (Except.ok.inj hread).symm

/-- Without its version a record can be stored. -/
theorem isStorable_withVersion_none (r : Record) : (r.withVersion none).IsStorable := by
  intro v hv
  rw [version_withVersion] at hv
  cases hv

/-- What is kept for two records is the same only if they differ in nothing but their versions. -/
theorem eq_of_payload (h : Records.payload r = Records.payload r') :
    r.withVersion none = r'.withVersion none :=
  eq_of_text r.isStorable_withVersion_none r'.isStorable_withVersion_none h

end Record

/-! ### Defaults -/

namespace Defaults

variable {d : Defaults}

/-- No record of the defaults carries a version that cannot be stored. -/
def IsStorable (d : Defaults) : Prop := ∀ kind, ∀ r ∈ d.records kind, r.IsStorable

theorem decode_node (h : d.IsStorable) : schema.decode d.value.node = .ok d := by
  have husers : Decoder.list User.decode (Value.list (d.users.map User.value)).node = .ok d.users :=
    Decoder.list_node fun u hu =>
      User.decode_node u (Version.isReadable (h .user (.user u) (List.mem_map_of_mem hu)))
  have hroles : Decoder.list Role.decode (Value.list (d.roles.map Role.value)).node = .ok d.roles :=
    Decoder.list_node fun r hr =>
      Role.decode_node r (Version.isReadable (h .role (.role r) (List.mem_map_of_mem hr)))
  have hprivileges : Decoder.list Privilege.decode
      (Value.list (d.privileges.map Privilege.value)).node = .ok d.privileges :=
    Decoder.list_node fun p hp =>
      Privilege.decode_node p
        (Version.isReadable (h .privilege (.privilege p) (List.mem_map_of_mem hp)))
  have hmappings : Decoder.list Mapping.decode
      (Value.list (d.mappings.map Mapping.value)).node = .ok d.mappings :=
    Decoder.list_node fun m hm =>
      Mapping.decode_node m (Version.isReadable (h .mapping (.mapping m) (List.mem_map_of_mem hm)))
  rw [value, Schema.decode_node]
  simp [schema, Schema.member, Schema.field?, Schema.missed?, Field.may, Decoder.name, bind,
    Except.bind, pure, Except.pure, Except.map, husers, hroles, hprivileges, hmappings]

/-- **Defaults are read back from their text.** -/
theorem ofText_render (h : d.IsStorable) : ofText d.value.render = .ok d := by
  rw [ofText, Decoder.run, Document.ofText_render]
  simp only [decode_node h]
  rfl

end Defaults

/-! ### The result -/

/-- **Nothing is lost in writing a record.**  Records and defaults are read back from their texts,
and a record from its row; so different records have different texts, and different payloads if more
than their versions differ. -/
theorem codec_lossless :
    (∀ r : Record, r.IsStorable → Record.ofText r.kind r.text = .ok r) ∧
      (∀ d : Defaults, d.IsStorable → Defaults.ofText d.value.render = .ok d) ∧
      (∀ (r : Record) (v : Int), 1 ≤ v →
        Records.ofRow r.kind ⟨v, Records.payload r⟩ = .ok (r.withVersion (some ⟨v⟩))) ∧
      (∀ r r' : Record, r.IsStorable → r'.IsStorable → r ≠ r' → r.text ≠ r'.text) ∧
      ∀ r r' : Record, r.withVersion none ≠ r'.withVersion none →
        Records.payload r ≠ Records.payload r' := by
  refine ⟨?_, ?_, ?_, ?_, ?_⟩
  · intro r h
    exact r.ofText_of_isStorable h
  · intro d h
    exact d.ofText_render h
  · intro r v hv
    exact r.ofRow_payload hv
  · intro r r' h h' hne htext
    exact hne (Record.eq_of_text h h' htext)
  · intro r r' hne hpayload
    exact hne (Record.eq_of_payload hpayload)

/-- A user at the largest version whose texts need every sort of escape. -/
def scribbled : User where
  id := "\"\\\x07\n/😀"
  version := some ⟨9223372036854775807⟩
  email := ""
  status := .changePassword
  password := some "\x00"

/-- The user is read back, alone, among defaults and from a row, and is not taken for a role of the
same id. -/
theorem codec_lossless_of_scribbled :
    Record.ofText .user (Record.user scribbled).text = .ok (.user scribbled) ∧
      Defaults.ofText (Defaults.value { users := [scribbled] }).render
        = .ok { users := [scribbled] } ∧
      Records.ofRow .user ⟨7, Records.payload (.user scribbled)⟩
        = .ok ((Record.user scribbled).withVersion (some ⟨7⟩)) ∧
      (Record.user scribbled).text ≠ (Record.role { id := scribbled.id }).text ∧
      Records.payload (.user scribbled) ≠ Records.payload (.role { id := scribbled.id }) := by
  have hlargest : Version.IsStorable ⟨9223372036854775807⟩ := ⟨by decide, by decide⟩
  have huser : (Record.user scribbled).IsStorable := by
    rintro v ⟨⟩
    exact hlargest
  have hrole : (Record.role { id := scribbled.id }).IsStorable := by
    rintro v ⟨⟩
  have hdefaults : Defaults.IsStorable { users := [scribbled] } := by
    intro kind r hr
    cases kind <;> simp [Defaults.records] at hr
    rw [hr]
    exact huser
  obtain ⟨hrecord, hdocument, hrow, htext, hpayload⟩ := codec_lossless
  exact ⟨hrecord (.user scribbled) huser, hdocument _ hdefaults, hrow (.user scribbled) 7 (by decide),
    htext _ _ huser hrole (by simp), hpayload _ _ (by simp [Record.withVersion])⟩

end AccessStore
