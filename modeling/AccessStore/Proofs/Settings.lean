/-
What settings say.

A document of settings may only have members that are settings, each at most once, and what it does
not say is at its default.  That is so because the schema is strict, `Schema.known_of_foldlM`.

The location is an object of its own and is read in another way.  Its members are gone through to find
the tag, and the others are set aside until the tag says which of them matter.  Of those it asks for a
path and lets the rest be, so a member that means nothing there, or a path beside the tag of a
location in memory, is passed over without a word.  `Location.decode_object` says which objects are
locations, and that is all that is asked of them; `Location.decode_insert` that any other member
makes no difference.
-/
import AccessStore.Proofs.Members
import AccessStore.Proofs.ReadBack
import AccessStore.Setup

namespace AccessStore

open Json

/-! ### Locations -/

namespace Location

variable {room : Nat} {parts parts' : Parts} {m : Member} {members rest : List Member} {name : String}
  {node : Node} {tag : Tag} {loc : Location}

/-- The tag in documents. -/
def Tag.text : Tag → String
  | memory => "memory"
  | file => "file"

/-- Each member has a name, and a value that can be set aside unless it is the tag. -/
def Fit (room : Nat) (members : List Member) : Prop :=
  ∀ m ∈ members, ∃ name, m.1 = some name ∧ (name ≠ "kind" → m.2.keeps room = true)

/-- What is known of the tag after these members: the same as before if the tag is not among them, and
the tag if nothing was known. -/
def TagFound (before : Option Tag) (members : List Member) (after : Option Tag) : Prop :=
  Absent members "kind" ∧ after = before ∨
    before = none ∧ ∃ tag : Tag, after = some tag ∧ Only members "kind" (.text (some tag.text))

/-- The members that are set aside. -/
def untagged (members : List Member) : List (String × Node) :=
  members.filterMap fun m => m.1.bind fun name => if name = "kind" then none else some (name, m.2)

theorem tagOf_eq_ok : tagOf node = .ok tag ↔ node = .text (some tag.text) := by
  constructor
  · intro hok
    obtain ⟨given, htext, hchoose⟩ := bind_eq_ok.mp hok
    have hnode : node = .text (some given) := by
      unfold Decoder.text at htext
      split at htext
      · rw [Except.ok.inj htext]
      · cases htext
    rw [hnode]
    unfold Decoder.choose tags at hchoose
    by_cases hmemory : given = "memory"
    · subst hmemory
      rw [← Except.ok.inj hchoose]
      rfl
    · by_cases hfile : given = "file"
      · subst hfile
        rw [← Except.ok.inj hchoose]
        rfl
      · simp [Ne.symm hmemory, Ne.symm hfile] at hchoose
  · rintro rfl
    cases tag <;> rfl

theorem tagFound_cons_ne {before after : Option Tag} (h : m.1 ≠ some "kind") :
    TagFound before (m :: rest) after ↔ TagFound before rest after := by
  simp only [TagFound, absent_cons, only_cons_ne h, ne_eq, h, not_false_eq_true, true_and]

theorem tagFound_cons_kind {before after : Option Tag} :
    TagFound before ((some "kind", node) :: rest) after ↔
      before = none ∧ ∃ tag : Tag, node = .text (some tag.text) ∧ TagFound (some tag) rest after := by
  constructor
  · rintro (⟨habsent, -⟩ | ⟨hnone, tag, htag, honly⟩)
    · exact absurd rfl (absent_cons.mp habsent).1
    · obtain ⟨hnode, habsent⟩ := only_cons_self.mp honly
      exact ⟨hnone, tag, hnode, .inl ⟨habsent, htag⟩⟩
  · rintro ⟨hnone, tag, hnode, ⟨habsent, htag⟩ | ⟨hsome, -⟩⟩
    · exact .inr ⟨hnone, tag, htag, only_cons_self.mpr ⟨hnode, habsent⟩⟩
    · cases hsome

theorem add_kind (room : Nat) (parts : Parts) (node : Node) :
    parts.add room (some "kind", node) = .ok parts' ↔
      parts.tag = none ∧ ∃ tag, node = .text (some tag.text) ∧ parts' = { parts with tag := some tag } := by
  have hadd : parts.add room (some "kind", node) = if parts.tag.isSome then .error (.duplicateField "kind")
      else (tagOf node).map fun tag => { parts with tag := some tag } := by
    simp only [Parts.add, Decoder.name, bind, Except.bind, if_true]
    cases parts.tag.isSome with
    | true => rfl
    | false =>
        cases tagOf node with
        | ok tag => rfl
        | error fault => rfl
  rw [hadd]
  split
  · rename_i hsome
    rw [Option.isSome_iff_ne_none] at hsome
    simp [hsome]
  · rename_i hnone
    simp only [Option.not_isSome_iff_eq_none] at hnone
    simp only [map_eq_ok, tagOf_eq_ok, hnone, true_and, eq_comm (b := parts')]

theorem add_other (room : Nat) (parts : Parts) (node : Node) (hname : name ≠ "kind") :
    parts.add room (some name, node) = .ok parts' ↔
      node.keeps room = true ∧ parts' = { parts with others := (name, node) :: parts.others } := by
  have hadd : parts.add room (some name, node)
      = if node.keeps room then .ok { parts with others := (name, node) :: parts.others }
        else .error .malformed := by
    simp only [Parts.add, Decoder.name, bind, Except.bind, if_neg hname, setAside]
    cases node.keeps room <;> rfl
  rw [hadd]
  split
  · simp [‹_›, eq_comm]
  · simp [‹_›]

/-- Going through the members finds the tag, if there is one, and sets the others aside. -/
theorem foldlM_add : members.foldlM (Parts.add room) parts = .ok parts' ↔
    Fit room members ∧ parts'.others = (untagged members).reverse ++ parts.others ∧
      TagFound parts.tag members parts'.tag := by
  induction members generalizing parts with
  | nil =>
      have hfit : Fit room [] := by
        intro m hm
        cases hm
      have hparts : parts = parts' ↔ parts'.others = parts.others ∧ parts'.tag = parts.tag := by
        obtain ⟨tag?, others⟩ := parts
        obtain ⟨tag?', others'⟩ := parts'
        simp [eq_comm, and_comm]
      have hfound : TagFound parts.tag [] parts'.tag ↔ parts'.tag = parts.tag := by
        simp [TagFound, Absent, Only]
      rw [hfound]
      show Except.ok parts = .ok parts' ↔ _
      simp [hfit, hparts, untagged]
  | cons m rest ih =>
      obtain ⟨name?, node⟩ := m
      rw [List.foldlM_cons, bind_eq_ok]
      cases name? with
      | none =>
          constructor
          · rintro ⟨parts₁, hadd, -⟩
            cases hadd
          · rintro ⟨hfit, -⟩
            obtain ⟨name, hname, -⟩ := hfit _ List.mem_cons_self
            cases hname
      | some name =>
          have hfit : Fit room ((some name, node) :: rest) ↔
              (name ≠ "kind" → node.keeps room = true) ∧ Fit room rest := by
            simp [Fit]
          rw [hfit]
          by_cases hname : name = "kind"
          · subst hname
            have huntagged : untagged ((some "kind", node) :: rest) = untagged rest := by
              simp [untagged]
            rw [huntagged, tagFound_cons_kind]
            constructor
            · rintro ⟨parts₁, hadd, hrest⟩
              obtain ⟨hnone, tag, hnode, rfl⟩ := (add_kind room parts node).mp hadd
              obtain ⟨hfit, hothers, hfound⟩ := ih.mp hrest
              exact ⟨⟨by simp, hfit⟩, hothers, hnone, tag, hnode, hfound⟩
            · rintro ⟨⟨-, hfit⟩, hothers, hnone, tag, hnode, hfound⟩
              exact ⟨_, (add_kind room parts node).mpr ⟨hnone, tag, hnode, rfl⟩,
                ih.mpr ⟨hfit, hothers, hfound⟩⟩
          · have huntagged : untagged ((some name, node) :: rest) = (name, node) :: untagged rest := by
              simp [untagged, hname]
            have hne : (some name, node).1 ≠ some "kind" := by simpa using hname
            rw [huntagged, tagFound_cons_ne hne, List.reverse_cons, List.append_assoc,
              List.singleton_append]
            constructor
            · rintro ⟨parts₁, hadd, hrest⟩
              obtain ⟨hkeeps, rfl⟩ := (add_other room parts node hname).mp hadd
              obtain ⟨hfit, hothers, hfound⟩ := ih.mp hrest
              exact ⟨⟨fun _ => hkeeps, hfit⟩, hothers, hfound⟩
            · rintro ⟨⟨hkeeps, hfit⟩, hothers, hfound⟩
              exact ⟨_, (add_other room parts node hname).mpr ⟨hkeeps hname, rfl⟩,
                ih.mpr ⟨hfit, hothers, hfound⟩⟩

/-! ### The path -/

/-- Take in one of the members that were set aside. -/
def takePath (found : Option String) (m : String × Node) : Except Fault (Option String) :=
  if m.1 = "path" then
    if found.isSome then throw (.duplicateField "path")
    else do
      let path ← Decoder.text m.2
      pure (some path)
  else pure found

theorem text_eq_ok {content : String} : Decoder.text node = .ok content ↔ node = .text (some content) := by
  constructor
  · intro hok
    unfold Decoder.text at hok
    split at hok
    · rw [Except.ok.inj hok]
    · cases hok
  · rintro rfl
    rfl

/-- The path that is found is the only one. -/
theorem foldlM_takePath {others : List (String × Node)} {found found' : Option String} :
    others.foldlM takePath found = .ok found' ↔
      others.filter (·.1 = "path") = [] ∧ found' = found ∨
        found = none ∧ ∃ path, found' = some path ∧
          others.filter (·.1 = "path") = [("path", .text (some path))] := by
  induction others generalizing found with
  | nil =>
      show Except.ok found = .ok found' ↔ _
      simp [eq_comm]
  | cons m rest ih =>
      obtain ⟨name, node⟩ := m
      rw [List.foldlM_cons, bind_eq_ok]
      by_cases hname : name = "path"
      · subst hname
        rw [List.filter_cons_of_pos (by simp)]
        cases found with
        | some path =>
            constructor
            · rintro ⟨found₁, htake, -⟩
              cases htake
            · rintro (⟨hnil, -⟩ | ⟨hnone, -⟩)
              · cases hnil
              · cases hnone
        | none =>
            constructor
            · rintro ⟨found₁, htake, hrest⟩
              obtain ⟨path, htext, hfound⟩ := bind_eq_ok.mp htake
              rw [← Except.ok.inj hfound] at hrest
              rcases ih.mp hrest with ⟨hnil, hpath⟩ | ⟨hnone, -⟩
              · have hnode : node = .text (some path) := text_eq_ok.mp htext
                exact .inr ⟨rfl, path, hpath, by rw [hnil, hnode]⟩
              · cases hnone
            · rintro (⟨hnil, -⟩ | ⟨-, path, hpath, honly⟩)
              · cases hnil
              · obtain ⟨hnode, hnil⟩ := List.cons.inj honly
                have htake : takePath none ("path", node) = .ok (some path) :=
                  bind_eq_ok.mpr ⟨path, text_eq_ok.mpr (Prod.mk.inj hnode).2, rfl⟩
                exact ⟨_, htake, ih.mpr (.inl ⟨hnil, hpath⟩)⟩
      · rw [List.filter_cons_of_neg (by simpa using hname)]
        have htake : takePath found (name, node) = .ok found := if_neg hname
        rw [htake]
        simp only [Except.ok.injEq, exists_eq_left', ih]

/-- Among the members that were set aside are those of every other name. -/
theorem filter_untagged (members : List Member) :
    (untagged members).filter (·.1 = "path")
      = (members.filter (·.1 = some "path")).map fun m => ("path", m.2) := by
  induction members with
  | nil => rfl
  | cons m rest ih =>
      obtain ⟨name?, node⟩ := m
      rw [untagged] at ih ⊢
      rw [List.filterMap_cons, List.filter_cons]
      cases name? with
      | none => simpa using ih
      | some name =>
          by_cases hname : name = "path"
          · simpa [hname] using ih
          · by_cases hkind : name = "kind"
            · simpa [hkind] using ih
            · simpa [hname, hkind] using ih

theorem pathOf_eq_ok {path : String} :
    pathOf (untagged members) = .ok path ↔ Only members "path" (.text (some path)) := by
  have honly : (untagged members).filter (·.1 = "path") = [("path", .text (some path))] ↔
      Only members "path" (.text (some path)) := by
    rw [filter_untagged, List.map_eq_singleton_iff, Only]
    constructor
    · rintro ⟨⟨name?, node⟩, hfilter, hnode⟩
      have hmem : (name?, node) ∈ members.filter (·.1 = some "path") := by
        rw [hfilter]
        exact List.mem_singleton_self _
      have hname : name? = some "path" := by simpa using (List.mem_filter.mp hmem).2
      have hvalue : node = .text (some path) := (Prod.mk.inj hnode).2
      rw [hfilter, hname, hvalue]
    · intro honly
      exact ⟨_, honly, rfl⟩
  change ((untagged members).foldlM takePath none >>= _) = .ok path ↔ _
  rw [bind_eq_ok, ← honly]
  constructor
  · rintro ⟨found, hfold, hfound⟩
    rcases foldlM_takePath.mp hfold with ⟨-, rfl⟩ | ⟨-, path', rfl, hfilter⟩
    · cases hfound
    · rw [hfilter, Except.ok.inj hfound]
  · intro hfilter
    exact ⟨some path, foldlM_takePath.mpr (.inr ⟨rfl, path, rfl, hfilter⟩), rfl⟩

/-! ### The object -/

/-- The members of a tagged object that the location asks for are there, once each. -/
def Tagged : Location → List Member → Prop
  | memory, members => Only members "kind" (.text (some "memory"))
  | file path, members =>
      Only members "kind" (.text (some "file")) ∧ Only members "path" (.text (some path))

/-- When the members have been taken in, the tag says what is still needed. -/
theorem decode_object_eq_ok {depth : Nat} {ending : Ending} :
    decode depth (.object members ending) = .ok loc ↔
      ∃ parts, members.foldlM (Parts.add (nesting - depth - 1)) {} = .ok parts ∧ ending = .closed ∧
        (parts.tag = some .memory ∧ loc = .memory ∨
          parts.tag = some .file ∧ ∃ path, pathOf parts.others.reverse = .ok path ∧ .file path = loc) := by
  change (members.foldlM (Parts.add (nesting - depth - 1)) {} >>= _) = .ok loc ↔ _
  rw [bind_eq_ok]
  refine exists_congr fun parts => and_congr_right fun _ => ?_
  cases ending with
  | cut =>
      constructor
      · intro hend
        cases hend
      · rintro ⟨hcut, -⟩
        cases hcut
  | closed =>
      obtain ⟨tag?, others⟩ := parts
      rcases tag? with _ | _ | _
      · constructor
        · intro hend
          cases hend
        · rintro ⟨-, ⟨htag, -⟩ | ⟨htag, -⟩⟩ <;> cases htag
      · constructor
        · intro hend
          exact ⟨rfl, .inl ⟨rfl, (Except.ok.inj hend).symm⟩⟩
        · rintro ⟨-, ⟨-, rfl⟩ | ⟨htag, -⟩⟩
          · rfl
          · cases htag
      · constructor
        · intro hend
          obtain ⟨path, hpath, hloc⟩ := bind_eq_ok.mp hend
          exact ⟨rfl, .inr ⟨rfl, path, hpath, Except.ok.inj hloc⟩⟩
        · rintro ⟨-, ⟨htag, -⟩ | ⟨-, path, hpath, rfl⟩⟩
          · cases htag
          · exact bind_eq_ok.mpr ⟨path, hpath, rfl⟩

/-- **Which objects are locations.** -/
theorem decode_object {depth : Nat} {ending : Ending} :
    decode depth (.object members ending) = .ok loc ↔
      ending = .closed ∧ Fit (nesting - depth - 1) members ∧ loc.Tagged members := by
  rw [decode_object_eq_ok]
  constructor
  · rintro ⟨parts, hfold, rfl, htagged⟩
    obtain ⟨hfit, hothers, hfound⟩ := foldlM_add.mp hfold
    refine ⟨rfl, hfit, ?_⟩
    rcases hfound with ⟨-, hnone⟩ | ⟨-, tag, hsome, honly⟩
    · rcases htagged with ⟨htag, -⟩ | ⟨htag, -⟩ <;> cases hnone.symm.trans htag
    · rcases htagged with ⟨htag, rfl⟩ | ⟨htag, path, hpath, rfl⟩
      · cases hsome.symm.trans htag
        exact honly
      · cases hsome.symm.trans htag
        rw [hothers, List.append_nil, List.reverse_reverse] at hpath
        exact ⟨honly, pathOf_eq_ok.mp hpath⟩
  · rintro ⟨rfl, hfit, htagged⟩
    cases loc with
    | memory =>
        refine ⟨⟨some .memory, (untagged members).reverse⟩, foldlM_add.mpr ⟨hfit, ?_, ?_⟩, rfl, ?_⟩
        · exact (List.append_nil _).symm
        · exact .inr ⟨rfl, .memory, rfl, htagged⟩
        · exact .inl ⟨rfl, rfl⟩
    | file path =>
        refine ⟨⟨some .file, (untagged members).reverse⟩, foldlM_add.mpr ⟨hfit, ?_, ?_⟩, rfl, ?_⟩
        · exact (List.append_nil _).symm
        · exact .inr ⟨rfl, .file, rfl, htagged.1⟩
        · refine .inr ⟨rfl, path, ?_, rfl⟩
          rw [List.reverse_reverse]
          exact pathOf_eq_ok.mpr htagged.2

/-- The names of the members that a location asks for. -/
def asked : Location → List String
  | memory => ["kind"]
  | file _ => ["kind", "path"]

/-- What is asked for is there once. -/
theorem Tagged.only (h : loc.Tagged members) : ∀ name ∈ loc.asked, ∃ node, Only members name node := by
  cases loc with
  | memory => exact List.forall_mem_cons.mpr ⟨⟨_, h⟩, by simp⟩
  | file path => exact List.forall_mem_cons.mpr ⟨⟨_, h.1⟩, List.forall_mem_cons.mpr ⟨⟨_, h.2⟩, by simp⟩⟩

theorem nodup_asked (loc : Location) : loc.asked.Nodup := by
  cases loc <;> simp [asked]

theorem only_insert {before after : List Member} {other : String} {value : Node} (hname : name ≠ other) :
    Only (before ++ (some name, node) :: after) other value ↔ Only (before ++ after) other value := by
  rw [Only, Only, List.filter_append, List.filter_append, List.filter_cons_of_neg (by simpa using hname)]

/-- **A member that is not asked for makes no difference**, if its value can be set aside. -/
theorem decode_insert {depth : Nat} {ending : Ending} {before after : List Member}
    (hname : name ∉ loc.asked) (hkeeps : node.keeps (nesting - depth - 1) = true) :
    decode depth (.object (before ++ (some name, node) :: after) ending) = .ok loc ↔
      decode depth (.object (before ++ after) ending) = .ok loc := by
  have hfit : Fit (nesting - depth - 1) (before ++ (some name, node) :: after) ↔
      Fit (nesting - depth - 1) (before ++ after) := by
    unfold Fit
    rw [List.forall_mem_append, List.forall_mem_cons, List.forall_mem_append]
    have hthis : ∃ n, some name = some n ∧ (n ≠ "kind" → node.keeps (nesting - depth - 1) = true) :=
      ⟨name, rfl, fun _ => hkeeps⟩
    exact and_congr_right fun _ => and_iff_right hthis
  have htagged : loc.Tagged (before ++ (some name, node) :: after) ↔ loc.Tagged (before ++ after) := by
    cases loc with
    | memory => exact only_insert fun h => hname (h ▸ List.mem_cons_self)
    | file path =>
        exact and_congr (only_insert fun h => hname (h ▸ List.mem_cons_self))
          (only_insert fun h => hname (h ▸ List.mem_cons_of_mem _ List.mem_cons_self))
  rw [decode_object, decode_object, hfit, htagged]

end Location

/-! ### What is written for a location -/

namespace Location

variable {loc : Location}

/-- The members of a location's document. -/
def members : Location → List Member
  | memory => [(some "kind", .text (some "memory"))]
  | file path => [(some "kind", .text (some "file")), (some "path", .text (some path))]

theorem node_value (loc : Location) : loc.value.node = .object loc.members .closed := by
  cases loc <;> rfl

theorem Tagged.perm {inner inner' : List Member} (h : loc.Tagged inner) (hperm : inner.Perm inner') :
    loc.Tagged inner' := by
  cases loc with
  | memory => exact Only.perm h hperm
  | file path => exact ⟨h.1.perm hperm, h.2.perm hperm⟩

/-- The members of a location, in any order, are read as the location. -/
theorem decode_perm {depth : Nat} {inner : List Member} (hperm : inner.Perm loc.members) :
    decode depth (.object inner .closed) = .ok loc := by
  have htagged : loc.Tagged loc.members := by
    cases loc with
    | memory => rfl
    | file path => exact ⟨rfl, rfl⟩
  have hfit : ∀ m ∈ loc.members, ∃ name, m.1 = some name ∧
      (name ≠ "kind" → m.2.keeps (nesting - depth - 1) = true) := by
    cases loc <;> simp [Location.members, Node.keeps]
  refine decode_object.mpr ⟨rfl, ?_, htagged.perm hperm.symm⟩
  intro m hm
  exact hfit m (hperm.mem_iff.mp hm)

end Location

/-! ### Settings -/

namespace Config

variable {α : Type} {outer : List Member} {c : Config}

/-- The names of the settings. -/
def settings : List String := ["database", "busy_timeout_ms", "log_level", "log_dir", "defaults_path"]

/-- To see that one setting sets a part of the settings and no other does, look at each of them. -/
theorem sets_of_parts {name : String} {d : Decoder α} {part : Config → α}
    (own : ∀ field node update c, schema.field? name = some field → field.read node = .ok update →
      d node = .ok (part (update c)))
    (database : name ≠ "database" → ∀ v c, part { c with database := v } = part c)
    (busyTimeoutMs : name ≠ "busy_timeout_ms" → ∀ v c, part { c with busyTimeoutMs := v } = part c)
    (logLevel : name ≠ "log_level" → ∀ v c, part { c with logLevel := v } = part c)
    (logDir : name ≠ "log_dir" → ∀ v c, part { c with logDir := v } = part c)
    (defaultsPath : name ≠ "defaults_path" → ∀ v c, part { c with defaultsPath := v } = part c) :
    schema.Sets name d part := by
  refine ⟨own, ?_⟩
  intro other field node update c hother hfield hread
  have hname : field.name = other := by simpa using List.find?_some hfield
  have hmem := List.mem_of_find?_eq_some hfield
  rw [← hname] at hother
  simp only [schema, List.mem_cons, List.not_mem_nil, or_false] at hmem
  rcases hmem with rfl | rfl | rfl | rfl | rfl <;> obtain ⟨v, -, rfl⟩ := map_eq_ok.mp hread
  · exact database hother.symm v c
  · exact busyTimeoutMs hother.symm v c
  · exact logLevel hother.symm v c
  · exact logDir hother.symm v c
  · exact defaultsPath hother.symm v c

/-- What the field of a setting reads is what it sets. -/
theorem own_of_may {name : String} {d : Decoder α} {part : Config → α} {set : α → Config → Config}
    (hfield : schema.field? name = some (.may name d set)) (hset : ∀ v c, part (set v c) = v) :
    ∀ field node update c, schema.field? name = some field → field.read node = .ok update →
      d node = .ok (part (update c)) := by
  intro field node update c hsome hread
  obtain rfl := Option.some.inj (hfield.symm.trans hsome)
  obtain ⟨v, hv, rfl⟩ := map_eq_ok.mp hread
  rw [hset, hv]

/-- The members of a document that say these settings. -/
structure Written (outer : List Member) (c : Config) : Prop where
  /-- Every member is a setting. -/
  known : ∀ m ∈ outer, ∃ name ∈ settings, m.1 = some name
  /-- Each setting is what its one member says, or at its default where it has none. -/
  database : Gives outer "database" (Location.decode 1) .memory c.database
  busyTimeoutMs : Gives outer "busy_timeout_ms" Decoder.unsigned64 5000 c.busyTimeoutMs
  logLevel : Gives outer "log_level" (.optional Decoder.text) none c.logLevel
  logDir : Gives outer "log_dir" (.optional Decoder.text) none c.logDir
  defaultsPath : Gives outer "defaults_path" (.optional Decoder.text) none c.defaultsPath

theorem written_of_ofMembers {ending : Ending} (hok : schema.ofMembers outer ending = .ok c) :
    c.Written outer := by
  obtain ⟨-, draft, hfold, -⟩ := Schema.ofMembers_ok hok
  refine ⟨?_, ?_, ?_, ?_, ?_, ?_⟩
  · intro m hm
    obtain ⟨field, hfield, hname⟩ := Schema.known_of_foldlM rfl hfold m hm
    exact ⟨field.name, List.mem_map_of_mem (f := Field.name) hfield, hname⟩
  · have hsets : schema.Sets "database" (Location.decode 1) Config.database :=
      sets_of_parts (own_of_may rfl fun _ _ => rfl) (absurd rfl) (fun _ _ _ => rfl) (fun _ _ _ => rfl)
        (fun _ _ _ => rfl) fun _ _ _ => rfl
    exact Schema.gives rfl hsets hok
  · have hsets : schema.Sets "busy_timeout_ms" Decoder.unsigned64 Config.busyTimeoutMs :=
      sets_of_parts (own_of_may rfl fun _ _ => rfl) (fun _ _ _ => rfl) (absurd rfl) (fun _ _ _ => rfl)
        (fun _ _ _ => rfl) fun _ _ _ => rfl
    exact Schema.gives rfl hsets hok
  · have hsets : schema.Sets "log_level" (.optional Decoder.text) Config.logLevel :=
      sets_of_parts (own_of_may rfl fun _ _ => rfl) (fun _ _ _ => rfl) (fun _ _ _ => rfl) (absurd rfl)
        (fun _ _ _ => rfl) fun _ _ _ => rfl
    exact Schema.gives rfl hsets hok
  · have hsets : schema.Sets "log_dir" (.optional Decoder.text) Config.logDir :=
      sets_of_parts (own_of_may rfl fun _ _ => rfl) (fun _ _ _ => rfl) (fun _ _ _ => rfl)
        (fun _ _ _ => rfl) (absurd rfl) fun _ _ _ => rfl
    exact Schema.gives rfl hsets hok
  · have hsets : schema.Sets "defaults_path" (.optional Decoder.text) Config.defaultsPath :=
      sets_of_parts (own_of_may rfl fun _ _ => rfl) (fun _ _ _ => rfl) (fun _ _ _ => rfl)
        (fun _ _ _ => rfl) (fun _ _ _ => rfl) (absurd rfl)
    exact Schema.gives rfl hsets hok

/-- No member goes unnoticed: each is a setting, and the location, if it is written as an object, asks
for each of its members. -/
def Tidy (outer : List Member) (c : Config) : Prop :=
  (∀ m ∈ outer, ∃ name ∈ settings, m.1 = some name) ∧
    ∀ inner ending, (some "database", .object inner ending) ∈ outer →
      ∀ m ∈ inner, ∃ name ∈ c.database.asked, m.1 = some name

/-- The location that is written as an object is the location of the settings. -/
theorem Written.location (h : c.Written outer) {inner : List Member} {ending : Ending}
    (hmem : (some "database", .object inner ending) ∈ outer) :
    Location.decode 1 (.object inner ending) = .ok c.database := by
  have hdatabase := h.database
  generalize c.database = loc at hdatabase ⊢
  cases hdatabase with
  | said honly hread => rwa [honly.eq_of_mem hmem]
  | unsaid habsent => exact absurd rfl (habsent _ hmem)

end Config

/-! ### The result -/

namespace Setup

variable {s : String} {c : Config} {outer : List Member} {ending : Ending}

/-- Settings that were accepted could be read. -/
theorem decode_of_configOfText (haccepted : configOfText s = .ok c) :
    Config.schema.decode (Document.ofText s).root = .ok c ∧ c.invalid? = none := by
  obtain ⟨read, hread, hvalid⟩ := bind_eq_ok.mp haccepted
  cases hrun : Config.schema.decode.run s with
  | error fault =>
      rw [hrun] at hread
      cases hread
  | ok config =>
      rw [hrun] at hread
      obtain rfl : config = read := Except.ok.inj hread
      obtain ⟨root, hroot, hwhole⟩ := bind_eq_ok.mp hrun
      have hvalid? : config.invalid? = none ∧ config = c := by
        split at hvalid
        · cases hvalid
        · exact ⟨‹_›, Except.ok.inj hvalid⟩
      split at hwhole
      · cases hwhole
      · rw [← hvalid?.2]
        exact ⟨hroot.trans hwhole, hvalid?.1⟩

/-- **What settings that are accepted say, and what they say in vain.**  Every member is a setting, given
once, and what is not given is at its default.  A location that is written as an object has the members
that it asks for, once each.  Any other member of it is passed over, for without it the location is the
same, and so no member goes unnoticed exactly if the location has no more members than it asks for. -/
theorem settings_of_text (haccepted : configOfText s = .ok c)
    (hroot : (Document.ofText s).root = .object outer ending) :
    c.Written outer ∧
      (∀ inner ending', (some "database", .object inner ending') ∈ outer →
        c.database.Tagged inner ∧
        ∀ before name node after, inner = before ++ (some name, node) :: after →
          name ∉ c.database.asked →
            Location.decode 1 (.object (before ++ after) ending') = .ok c.database) ∧
      (c.Tidy outer ↔ ∀ inner ending', (some "database", .object inner ending') ∈ outer →
        inner.length = c.database.asked.length) := by
  obtain ⟨hdecode, -⟩ := decode_of_configOfText haccepted
  rw [hroot] at hdecode
  have hwritten := Config.written_of_ofMembers hdecode
  have htagged (inner : List Member) (ending' : Ending)
      (hmem : (some "database", .object inner ending') ∈ outer) :
      Location.Fit (Location.nesting - 1 - 1) inner ∧ c.database.Tagged inner :=
    (Location.decode_object.mp (hwritten.location hmem)).2
  refine ⟨hwritten, ?_, ?_⟩
  · intro inner ending' hmem
    obtain ⟨hfit, htags⟩ := htagged inner ending' hmem
    refine ⟨htags, ?_⟩
    rintro before name node after rfl hname
    have hlocation := hwritten.location hmem
    obtain ⟨_, hsome, hkeeps⟩ := hfit (some name, node) (List.mem_append_right _ List.mem_cons_self)
    obtain rfl := Option.some.inj hsome
    have hkind : name ≠ "kind" := by
      rintro rfl
      cases hdatabase : c.database <;> simp [hdatabase, Location.asked] at hname
    exact (Location.decode_insert hname (hkeeps hkind)).mp hlocation
  · have hlength (inner : List Member) (ending' : Ending)
        (hmem : (some "database", .object inner ending') ∈ outer) :=
      all_named_iff_length c.database.nodup_asked (htagged inner ending' hmem).2.only
    constructor
    · intro htidy inner ending' hmem
      exact (hlength inner ending' hmem).mp (htidy.2 inner ending' hmem)
    · intro hlengths
      exact ⟨hwritten.known, fun inner ending' hmem =>
        (hlength inner ending' hmem).mpr (hlengths inner ending' hmem)⟩

/-- Settings with a path beside the tag of a location in memory. -/
def strayPath : String :=
  "\x7b\"database\":\x7b\"kind\":\"memory\",\"path\":\"/tmp/a.db\"\x7d\x7d"

theorem strayPath_eq : strayPath = Value.render
    (.object [("database", .object [("kind", .text "memory"), ("path", .text "/tmp/a.db")])]) := by
  decide +kernel

theorem root_strayPath : (Document.ofText strayPath).root
    = .object [(some "database", .object [(some "kind", .text (some "memory")),
        (some "path", .text (some "/tmp/a.db"))] .closed)] .closed := by
  rw [strayPath_eq, Document.ofText_render]
  rfl

/-- They are accepted and are all at their defaults. -/
theorem configOfText_strayPath : configOfText strayPath = .ok {} := by
  rw [strayPath_eq, configOfText, Decoder.run, Document.ofText_render]
  rfl

/-- The path is passed over: the location is the same without it. -/
theorem settings_of_strayPath : ({} : Config).Written [(some "database", .object
      [(some "kind", .text (some "memory")), (some "path", .text (some "/tmp/a.db"))] .closed)] ∧
    Location.decode 1 (.object [(some "kind", .text (some "memory"))] .closed) = .ok .memory := by
  obtain ⟨hwritten, hlocation, -⟩ := settings_of_text configOfText_strayPath root_strayPath
  refine ⟨hwritten, ?_⟩
  have hpassed := (hlocation _ _ List.mem_cons_self).2 [(some "kind", .text (some "memory"))] "path"
    (.text (some "/tmp/a.db")) [] rfl (by decide)
  exact hpassed

/-- So it is not so that no member of accepted settings goes unnoticed. -/
theorem stray_path_unnoticed : ¬ ∀ s c outer ending, configOfText s = .ok c →
    (Document.ofText s).root = .object outer ending → c.Tidy outer := by
  intro htidy
  have hinner := (htidy strayPath _ _ _ configOfText_strayPath root_strayPath).2 _ _ List.mem_cons_self
  obtain ⟨name, hname, hpath⟩ := hinner (some "path", .text (some "/tmp/a.db"))
    (List.mem_cons_of_mem _ List.mem_cons_self)
  obtain rfl := Option.some.inj hpath
  exact absurd hname (by decide)

end Setup

end AccessStore
