/-
One value of a record's document.

The value of a field stands in an object as a member of the field's name, or in a list at the field's place
among the others.  If a record could be read, then it was the value's update that came last, or might as well
have been: `Schema.decode_exchange` says what any other value in its stead amounts to, the rest of the document
being what it is.
-/
import AccessStore.Proofs.MemberOrder

namespace AccessStore.Json

variable {ρ : Type} {s : Schema ρ} {fields : List (Field ρ)} {field : Field ρ} {node : Node} {r r' : ρ}

/-! ### Values in lists -/

namespace Schema

/-- An update that commutes with all that follow can be done in the end. -/
theorem ofItems_update {update : ρ → ρ} {ending : Ending} {items : List Node}
    (hcommute : ∀ field ∈ fields, ∀ node update', field.read node = .ok update' →
      ∀ r, update' (update r) = update (update' r)) :
    ofItems (update r) ending fields items = (ofItems r ending fields items).map update := by
  induction fields generalizing items r with
  | nil =>
      cases items with
      | nil =>
          simp only [ofItems]
          split <;> rfl
      | cons node items => rfl
  | cons field fields ih =>
      obtain ⟨hfield, hrest⟩ := List.forall_mem_cons.mp hcommute
      cases items with
      | nil =>
          simp only [ofItems]
          split
          · rfl
          split
          · rfl
          exact ih hrest
      | cons node items =>
          simp only [ofItems, bind, Except.bind]
          cases hread : field.read node with
          | error fault => rfl
          | ok update' =>
              show ofItems (update' (update r)) ending fields items = _
              rw [hfield node update' hread]
              exact ih hrest

/-- The value at a field's place in a list can be another one. -/
theorem ofItems_exchange {before after : List Node} {ending : Ending} (hs : fields.Pairwise Field.Commute)
    (hfield : fields[before.length]? = some field)
    (hok : ofItems r ending fields (before ++ node :: after) = .ok r') :
    ∃ base update, field.read node = .ok update ∧ update base = r' ∧
      ∀ other, ofItems r ending fields (before ++ other :: after)
        = (field.read other).map fun update => update base := by
  induction before generalizing fields r with
  | nil =>
      obtain _ | ⟨first, fields⟩ := fields
      · cases hfield
      obtain rfl : first = field := Option.some.inj hfield
      obtain ⟨hfirst, -⟩ := List.pairwise_cons.mp hs
      have hlast : ∀ other update, first.read other = .ok update →
          ofItems (update r) ending fields after = (ofItems r ending fields after).map update := by
        intro other update hother
        exact ofItems_update fun field hmem node update' hread r' =>
          (hfirst field hmem other node update update' hother hread r').symm
      obtain ⟨update, hread, hrest⟩ := bind_eq_ok.mp hok
      rw [hlast node update hread] at hrest
      obtain ⟨base, hbase, rfl⟩ := map_eq_ok.mp hrest
      refine ⟨base, update, hread, rfl, fun other => ?_⟩
      rw [List.nil_append, ofItems]
      cases hother : first.read other with
      | error fault => rfl
      | ok update' =>
          refine (hlast other update' hother).trans ?_
          rw [hbase]
          rfl
  | cons item before ih =>
      obtain _ | ⟨first, fields⟩ := fields
      · cases hfield
      obtain ⟨-, hrest⟩ := List.pairwise_cons.mp hs
      obtain ⟨update, hread, hok⟩ := bind_eq_ok.mp hok
      obtain ⟨base, update', hread', rfl, hother⟩ := ih hrest hfield hok
      refine ⟨base, update', hread', rfl, fun other => ?_⟩
      rw [List.cons_append, ofItems, hread]
      exact hother other

end Schema

/-! ### Values anywhere -/

/-- Where a value stands among others. -/
inductive Slot
  | member (before : List Member) (name : String) (after : List Member)
  | item (before after : List Node)

namespace Slot

/-- The object or list with a value there. -/
def fill : Slot → Node → Node
  | member before name after, node => .object (before ++ (some name, node) :: after) .closed
  | item before after, node => .array (before ++ node :: after) .closed

/-- It is the value of the field of this name that stands there. -/
def IsOf (s : Schema ρ) (name : String) : Slot → Prop
  | member _ own _ => own = name
  | item before _ => (s.fields.map (·.name))[before.length]? = some name

end Slot

/-- **What a document amounts to with another value of a field.** -/
theorem Schema.decode_exchange {slot : Slot} {name : String} (hlenient : s.strict = false)
    (hs : s.Independent) (honce : (s.fields.map (·.name)).Nodup) (hfield : s.field? name = some field)
    (hslot : slot.IsOf s name) (hok : s.decode (slot.fill node) = .ok r) :
    ∃ base update, field.read node = .ok update ∧ update base = r ∧
      ∀ other, s.decode (slot.fill other) = (field.read other).map fun update => update base := by
  cases slot with
  | member before own after =>
      obtain rfl : own = name := hslot
      exact ofMembers_exchange hlenient hs before after hfield hok
  | item before after =>
      obtain ⟨field', hfield', hname⟩ : ∃ field', s.fields[before.length]? = some field' ∧
          field'.name = name := by
        simpa [Slot.IsOf, List.getElem?_map] using hslot
      obtain rfl : field' = field :=
        List.inj_on_of_nodup_map honce (List.mem_of_getElem? hfield') (List.mem_of_find?_eq_some hfield)
          (hname.trans (name_of_field? hfield).symm)
      exact ofItems_exchange hs hfield' hok

end AccessStore.Json
