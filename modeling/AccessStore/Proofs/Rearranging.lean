/-
Records in documents of any layout.

The fields of a record can be given in any order and among members of any other names, with white space
between all tokens as one likes.  A field that is given its default might as well be left out, unless it is
one that identifies the record.  Only a field that is given twice is never understood.  `Rearranged` has these
changes of an object one by one, and `Record.ofText_rearranged` says that a record survives any number of
them, in any document that writes the object.
-/
import AccessStore.Record
import AccessStore.Proofs.Documents
import AccessStore.Proofs.MemberOrder

namespace AccessStore

open Json

/-! ### How the records of a kind are written -/

/-- How records are written: a schema, and the record that its content is. -/
structure Form where
  Content : Type
  schema : Schema Content
  record : Content → Record

namespace Kind

variable {kind : Kind}

/-- How the records of a kind are written. -/
def form : Kind → Form
  | user => ⟨User, User.schema, .user⟩
  | role => ⟨Role, Role.schema, .role⟩
  | privilege => ⟨Privilege, Privilege.schema, .privilege⟩
  | mapping => ⟨Mapping, Mapping.schema, .mapping⟩

/-- The names of the fields that a record of the kind has. -/
def fieldNames (kind : Kind) : List String := kind.form.schema.fields.map (·.name)

/-- The names of the fields that identify a record of the kind. -/
def identityNames : Kind → List String
  | mapping => ["userId", "source"]
  | _ => ["id"]

theorem decode_eq (kind : Kind) (node : Node) :
    Record.decode kind node = (kind.form.schema.decode node).map kind.form.record := by
  cases kind <;> rfl

/-- Members of other names are passed over. -/
theorem lenient (kind : Kind) : kind.form.schema.strict = false := by
  cases kind <;> rfl

/-- Every field sets a part of its own. -/
theorem independent (kind : Kind) : kind.form.schema.Independent := by
  cases kind <;>
    simp only [Schema.Independent, form, User.schema, Role.schema, Privilege.schema, Mapping.schema,
      List.pairwise_cons, List.forall_mem_cons, List.not_mem_nil, false_imp_iff, implies_true,
      List.Pairwise.nil, and_true] <;>
    and_intros <;>
    exact Field.commute_of_sets rfl rfl fun _ _ _ => rfl

/-- The fields that must be given are those that identify the record. -/
theorem required_iff (kind : Kind) : ∀ field ∈ kind.form.schema.fields,
    (field.required = true ↔ field.name ∈ kind.identityNames) := by
  cases kind <;> decide

theorem field?_eq_none_iff {name : String} :
    kind.form.schema.field? name = none ↔ name ∉ kind.fieldNames := by
  simp [Schema.field?, fieldNames]

theorem exists_field {name : String} (h : name ∈ kind.fieldNames) :
    ∃ field, kind.form.schema.field? name = some field := by
  rw [← Option.isSome_iff_exists, ← Option.ne_none_iff_isSome, Ne, field?_eq_none_iff]
  exact not_not_intro h

/-- The field of this name is given its default. -/
def IsDefault (kind : Kind) (name : String) (node : Node) : Prop :=
  ∃ field update, kind.form.schema.field? name = some field ∧ field.read node = .ok update ∧
    update kind.form.schema.start = kind.form.schema.start

end Kind

/-! ### Changes that do not matter -/

/-- From one object to another by changes that do not matter to a record of the kind. -/
inductive Rearranged (kind : Kind) : List Member → List Member → Prop
  /-- The members are in another order. -/
  | permuted {members members' : List Member} (h : members.Perm members') :
      Rearranged kind members members'
  /-- There is one more, of a name that no field has; its value can be anything. -/
  | inserted (before after : List Member) {name : String} {node : Node} (hother : name ∉ kind.fieldNames)
      (hwhole : node.isWhole = true) :
      Rearranged kind (before ++ after) (before ++ (some name, node) :: after)
  /-- There is one less, which gave a field its default that does not identify the record. -/
  | dropped (before after : List Member) {name : String} {node : Node}
      (hidentity : name ∉ kind.identityNames) (hdefault : kind.IsDefault name node) :
      Rearranged kind (before ++ (some name, node) :: after) (before ++ after)
  | trans {members members' members'' : List Member} (h : Rearranged kind members members')
      (h' : Rearranged kind members' members'') : Rearranged kind members members''

namespace Rearranged

variable {kind : Kind} {members members' : List Member}

theorem ofMembers (h : Rearranged kind members members') {c : kind.form.Content}
    (hok : kind.form.schema.ofMembers members .closed = .ok c) :
    kind.form.schema.ofMembers members' .closed = .ok c := by
  induction h with
  | permuted hperm => exact (Schema.ofMembers_perm kind.lenient kind.independent hperm).mp hok
  | inserted before after hother hwhole =>
      exact Schema.ofMembers_insert_other kind.lenient kind.independent before after
        (Kind.field?_eq_none_iff.mpr hother) hwhole hok
  | dropped before after hidentity hdefault =>
      obtain ⟨field, update, hfield, hread, hstart⟩ := hdefault
      refine Schema.ofMembers_drop kind.lenient kind.independent before after hfield ?_ hread hstart hok
      intro other hother hrequired
      have hname := (kind.required_iff other hother).mp hrequired
      rintro rfl
      exact hidentity hname
  | trans _ _ ih ih' => exact ih' (ih hok)

end Rearranged

/-! ### The result -/

namespace Record

variable {kind : Kind} {members : List Member} {s : String} {r : Record}

/-- A document that writes a node is read as the record that the node makes. -/
theorem ofText_of_writes {node : Node} (h : Document.Writes s node) :
    ofText kind s = (kind.form.schema.decode node).map kind.form.record := by
  rw [ofText, Decoder.run, Document.ofText_of_writes h, Kind.decode_eq]
  cases kind.form.schema.decode node <;> rfl

/-- **The layout of a record's document does not matter.** -/
theorem ofText_rearranged (kind : Kind) :
    (∀ members members' s s' r, Rearranged kind members members' →
      Document.Writes s (.object members .closed) → Document.Writes s' (.object members' .closed) →
        ofText kind s = .ok r → ofText kind s' = .ok r) ∧
    ∀ before after name node s, name ∈ kind.fieldNames → (∃ other, (some name, other) ∈ before ++ after) →
      Document.Writes s (.object (before ++ (some name, node) :: after) .closed) →
        ∃ fault, ofText kind s = .error fault := by
  refine ⟨?_, ?_⟩
  · intro members members' s s' r hrearranged hs hs' hok
    rw [ofText_of_writes hs] at hok
    obtain ⟨c, hc, rfl⟩ := map_eq_ok.mp hok
    rw [ofText_of_writes hs', Schema.decode, hrearranged.ofMembers hc]
    rfl
  · intro before after name node s hname htwice hs
    obtain ⟨field, hfield⟩ := Kind.exists_field hname
    obtain ⟨other, hother⟩ := htwice
    have hnot : ¬ Absent (before ++ after) name := fun habsent => habsent _ hother rfl
    rw [ofText_of_writes hs, Schema.decode]
    cases hc : kind.form.schema.ofMembers (before ++ (some name, node) :: after) .closed with
    | error fault => exact ⟨fault, rfl⟩
    | ok c => exact absurd hc (Schema.ofMembers_twice kind.lenient before after hfield hnot)

/-- A role without roles, and the same one with a note, on two lines. -/
def plainText : String := "\x7b\"id\":\"dev\",\"roles\":[]\x7d"

def notedText : String := "\x7b \"note\" : [[1e5]],\n\"id\":\"dev\" \x7d"

/-- A role that says its name twice. -/
def repeatedText : String := "\x7b\"id\":\"dev\",\"id\":\"dev\"\x7d"

/-- The note does not matter and neither do the roles that are not there, but the name does. -/
theorem ofText_rearranged_of_note :
    ofText .role notedText = .ok (.role { id := "dev" }) ∧ ∃ fault, ofText .role repeatedText = .error fault := by
  have hplain : Document.Writes plainText
      (.object [(some "id", .text (some "dev")), (some "roles", .array [] .closed)] .closed) :=
    Document.writes_iff.mpr ⟨rfl, rfl⟩
  have hnoted : Document.Writes notedText
      (.object [(some "note", .array [.array [.number ['1', 'e', '5']] .closed] .closed),
        (some "id", .text (some "dev"))] .closed) :=
    Document.writes_iff.mpr ⟨rfl, rfl⟩
  have hrepeated : Document.Writes repeatedText
      (.object [(some "id", .text (some "dev")), (some "id", .text (some "dev"))] .closed) :=
    Document.writes_iff.mpr ⟨rfl, rfl⟩
  have hdropped : Rearranged .role
      [(some "id", .text (some "dev")), (some "roles", .array [] .closed)] [(some "id", .text (some "dev"))] :=
    .dropped [_] [] (by decide) ⟨_, _, rfl, rfl, rfl⟩
  have hinserted : Rearranged .role [(some "id", .text (some "dev"))]
      [(some "note", .array [.array [.number ['1', 'e', '5']] .closed] .closed),
        (some "id", .text (some "dev"))] :=
    .inserted [] _ (by decide) rfl
  obtain ⟨hsame, htwice⟩ := ofText_rearranged .role
  refine ⟨hsame _ _ _ _ _ (hdropped.trans hinserted) hplain hnoted rfl, ?_⟩
  exact htwice [_] [] "id" _ _ (by decide) ⟨_, List.mem_singleton_self _⟩ hrepeated

end Record

end AccessStore
