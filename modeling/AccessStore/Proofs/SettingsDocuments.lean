/-
Settings as documents.

The documents that say given settings are known exactly: their members are settings, each at most once,
and what they give or leave out comes to these settings.  One direction of this is `Settings`; the other,
that nothing else is asked of a document, is here, `Config.ofMembers_iff`.  Nothing in it speaks of the order
of members, and neither does what is asked of a location, so settings are read back from what is written for
them and from any document with the same members in another order.  In particular it does not matter whether
the tag of a location comes first.

What a location needs is set aside until its tag is known, and texts can always be set aside.
-/
import AccessStore.Proofs.MemberOrder
import AccessStore.Proofs.StoreOpening

namespace AccessStore

/-! ### Members in another order -/

namespace Json

namespace Schema

variable {ρ : Type} {s : Schema ρ} {members : List Member}

/-- Each of the members gives a field, and a value that can be read for it. -/
def Reads (s : Schema ρ) (members : List Member) : Prop :=
  ∀ m ∈ members, ∃ name field update, m.1 = some name ∧ s.field? name = some field ∧
    field.read m.2 = .ok update

/-- Such members are taken in, if no field is given twice. -/
theorem exists_foldlM (draft : Draft ρ) (hreads : s.Reads members) (honce : (members.map (·.1)).Nodup)
    (hnew : ∀ name ∈ draft.given, Absent members name) :
    ∃ draft', members.foldlM s.member draft = .ok draft' ∧
      ∀ name, name ∈ draft.given ∨ some name ∈ members.map (·.1) → name ∈ draft'.given := by
  induction members generalizing draft with
  | nil => exact ⟨draft, rfl, fun name hname => hname.resolve_right (by simp)⟩
  | cons m rest ih =>
      obtain ⟨hm, hrest⟩ := List.forall_mem_cons.mp hreads
      obtain ⟨own, node⟩ := m
      obtain ⟨name, field, update, rfl, hfield, hread⟩ := hm
      obtain ⟨hfirst, honce⟩ := List.nodup_cons.mp honce
      have hname : name ∉ draft.given := fun hgiven => hnew name hgiven _ List.mem_cons_self rfl
      have htaken : s.member draft (some name, node) = .ok ⟨update draft.record, name :: draft.given⟩ := by
        rw [member_field hfield, if_neg hname, hread]
        rfl
      obtain ⟨draft', hfold, hgiven⟩ := ih ⟨update draft.record, name :: draft.given⟩ hrest honce <| by
        intro other hother
        rcases List.mem_cons.mp hother with rfl | hother
        · intro m hm heq
          exact hfirst (List.mem_map.mpr ⟨m, hm, heq⟩)
        · exact (absent_cons.mp (hnew other hother)).2
      refine ⟨draft', ?_, ?_⟩
      · rw [List.foldlM_cons, htaken]
        exact hfold
      · intro other hother
        refine hgiven other ?_
        rw [List.map_cons, List.mem_cons] at hother
        rcases hother with hother | hother | hother
        · exact .inl (List.mem_cons_of_mem _ hother)
        · obtain rfl := Option.some.inj hother
          exact .inl List.mem_cons_self
        · exact .inr hother

/-- Such members make a record, if no field is given twice and every required one is given. -/
theorem exists_ofMembers (hreads : s.Reads members) (honce : (members.map (·.1)).Nodup)
    (hrequired : ∀ field ∈ s.fields, field.required = true → some field.name ∈ members.map (·.1)) :
    ∃ r, s.ofMembers members .closed = .ok r := by
  obtain ⟨draft, hfold, hgiven⟩ := exists_foldlM ⟨s.start, []⟩ hreads honce (by simp)
  have hmissed : s.missed? draft.given = none :=
    missed?_eq_none_iff.mpr fun field hfield h => hgiven _ (.inr (hrequired field hfield h))
  refine ⟨draft.record, ?_⟩
  simp only [ofMembers, hfold, bind, Except.bind, if_pos, hmissed]
  rfl

end Schema

end Json

open Json

/-! ### Locations -/

namespace Location

variable {s : String}

/-- A document that writes an object is read as the location that the object makes. -/
theorem ofText_of_writes {node : Node} (h : Document.Writes s node) : ofText s = decode 0 node := by
  rw [ofText, Decoder.run, Document.ofText_of_writes h]
  cases decode 0 node <;> rfl

end Location

/-! ### Settings -/

namespace Config

variable {c c' : Config} {outer outer' : List Member}

theorem Written.perm (h : c.Written outer) (hperm : outer.Perm outer') : c.Written outer' where
  known m hm := h.known m (hperm.mem_iff.mpr hm)
  database := h.database.perm hperm
  busyTimeoutMs := h.busyTimeoutMs.perm hperm
  logLevel := h.logLevel.perm hperm
  logDir := h.logDir.perm hperm
  defaultsPath := h.defaultsPath.perm hperm

/-- Members do not say two settings. -/
theorem Written.unique (h : c.Written outer) (h' : c'.Written outer) : c = c' := by
  obtain ⟨database, busyTimeoutMs, logLevel, logDir, defaultsPath⟩ := c
  obtain rfl := h.database.unique h'.database
  obtain rfl := h.busyTimeoutMs.unique h'.busyTimeoutMs
  obtain rfl := h.logLevel.unique h'.logLevel
  obtain rfl := h.logDir.unique h'.logDir
  obtain rfl := h.defaultsPath.unique h'.defaultsPath
  rfl

/-- A setting that may be given is read by its field. -/
theorem read_of_gives {α : Type} {name : String} {d : Decoder α} {default value : α} {node : Node}
    {set : α → Config → Config} (hfield : schema.field? name = some (.may name d set))
    (hgives : Gives outer name d default value) (hmem : (some name, node) ∈ outer) :
    Only outer name node ∧
      ∃ field update, schema.field? name = some field ∧ field.read node = .ok update := by
  obtain ⟨honly, hread⟩ := hgives.of_mem hmem
  refine ⟨honly, _, set value, hfield, ?_⟩
  show (d node).map set = _
  rw [hread]
  rfl

/-- Every member that says a setting is the only one and can be read. -/
theorem Written.read_of_mem (h : c.Written outer) {m : Member} (hm : m ∈ outer) :
    ∃ name, m.1 = some name ∧ Only outer name m.2 ∧
      ∃ field update, schema.field? name = some field ∧ field.read m.2 = .ok update := by
  obtain ⟨name, hname, hown⟩ := h.known m hm
  obtain ⟨own, node⟩ := m
  obtain rfl : own = some name := hown
  refine ⟨name, rfl, ?_⟩
  simp only [settings, List.mem_cons, List.not_mem_nil, or_false] at hname
  rcases hname with rfl | rfl | rfl | rfl | rfl
  · exact read_of_gives rfl h.database hm
  · exact read_of_gives rfl h.busyTimeoutMs hm
  · exact read_of_gives rfl h.logLevel hm
  · exact read_of_gives rfl h.logDir hm
  · exact read_of_gives rfl h.defaultsPath hm

/-- **Which objects say given settings.** -/
theorem ofMembers_iff : schema.ofMembers outer .closed = .ok c ↔ c.Written outer := by
  constructor
  · exact written_of_ofMembers
  · intro h
    have hreads : schema.Reads outer := by
      intro m hm
      obtain ⟨name, hname, -, field, update, hfield, hread⟩ := h.read_of_mem hm
      exact ⟨name, field, update, hname, hfield, hread⟩
    have honce : (outer.map (·.1)).Nodup := by
      refine nodup_of_only fun m hm => ?_
      obtain ⟨name, hname, honly, -⟩ := h.read_of_mem hm
      exact ⟨name, hname, honly⟩
    have hrequired : ∀ field ∈ schema.fields, field.required = true →
        some field.name ∈ outer.map (·.1) := by
      simp [schema, Field.may]
    obtain ⟨c', hc'⟩ := Schema.exists_ofMembers hreads honce hrequired
    rw [hc', (written_of_ofMembers hc').unique h]

/-- The members of a document of settings, with these members for the location. -/
def members (c : Config) (inner : List Member) : List Member :=
  [(some "database", .object inner .closed),
    (some "busy_timeout_ms", .number (Text.decimalChars c.busyTimeoutMs)),
    (some "log_level", (Value.textOrNull c.logLevel).node), (some "log_dir", (Value.textOrNull c.logDir).node),
    (some "defaults_path", (Value.textOrNull c.defaultsPath).node)]

theorem node_value (c : Config) : c.value.node = .object (c.members c.database.members) .closed := by
  rw [value, Value.node, Value.memberNodes_eq_map, List.map, Location.node_value]
  rfl

/-- What is written for settings says them, in whatever order the location is written. -/
theorem written_members (hcounted : c.busyTimeoutMs < 2 ^ 64) {inner : List Member}
    (hinner : inner.Perm c.database.members) : c.Written (c.members inner) where
  known := by simp [members, settings]
  database := .said rfl (Location.decode_perm hinner)
  busyTimeoutMs := .said rfl (unsigned64_node hcounted)
  logLevel := .said rfl (optional_node c.logLevel)
  logDir := .said rfl (optional_node c.logDir)
  defaultsPath := .said rfl (optional_node c.defaultsPath)

end Config

/-! ### The result -/

namespace Setup

variable {s : String} {c : Config} {outer : List Member}

/-- **Which documents are accepted for which settings**: those that say them, if they make sense. -/
theorem configOfText_iff (h : Document.Writes s (.object outer .closed)) :
    configOfText s = .ok c ↔ c.invalid? = none ∧ c.Written outer := by
  rw [← Config.ofMembers_iff]
  constructor
  · intro haccepted
    obtain ⟨hdecode, hvalid⟩ := decode_of_configOfText haccepted
    rw [Document.ofText_of_writes h] at hdecode
    exact ⟨hvalid, hdecode⟩
  · rintro ⟨hvalid, hmembers⟩
    have hdecode : Config.schema.decode (.object outer .closed) = .ok c := hmembers
    rw [configOfText, Decoder.run, Document.ofText_of_writes h]
    simp [hdecode, hvalid, bind, Except.bind, pure, Except.pure, Except.mapError]

/-- **Settings and locations are read back.**  Settings that make sense are read from their own text.  So is
a location, and its members may stand in any order, the tag being the first one or not.  The same goes for
the location within settings, and for the settings themselves. -/
theorem settings_round_trip :
    (∀ c : Config, c.invalid? = none → c.busyTimeoutMs < 2 ^ 64 → configOfText c.value.render = .ok c) ∧
    (∀ (loc : Location) members s, members.Perm loc.members →
      Document.Writes s (.object members .closed) → Location.ofText s = .ok loc) ∧
    ∀ (c : Config) inner outer s, c.invalid? = none → c.busyTimeoutMs < 2 ^ 64 →
      inner.Perm c.database.members → outer.Perm (c.members inner) →
        Document.Writes s (.object outer .closed) → configOfText s = .ok c := by
  have hanyOrder (c : Config) (inner outer : List Member) (s : String) (hvalid : c.invalid? = none)
      (hcounted : c.busyTimeoutMs < 2 ^ 64) (hinner : inner.Perm c.database.members)
      (houter : outer.Perm (c.members inner)) (hs : Document.Writes s (.object outer .closed)) :
      configOfText s = .ok c :=
    (configOfText_iff hs).mpr ⟨hvalid, (Config.written_members hcounted hinner).perm houter.symm⟩
  refine ⟨?_, ?_, hanyOrder⟩
  · intro c hvalid hcounted
    have hs := Document.writes_render c.value
    rw [Config.node_value] at hs
    exact hanyOrder c _ _ _ hvalid hcounted (.refl _) (.refl _) hs
  · intro loc members s hperm hs
    rw [Location.ofText_of_writes hs]
    exact Location.decode_perm hperm

/-- Settings with the longest wait there is and a path that needs escapes. -/
def scribbledSettings : Config where
  database := .file "\"\\\n😀"
  busyTimeoutMs := 18446744073709551615
  logDir := some "/var/log"

/-- A document of these settings that starts with the last of them and ends with the tag of the location. -/
def turnedAround : Value :=
  .object
    [("defaults_path", .null), ("log_dir", .text "/var/log"), ("log_level", .null),
      ("busy_timeout_ms", .number 18446744073709551615),
      ("database", .object [("path", .text "\"\\\n😀"), ("kind", .text "file")])]

/-- They are read back from their own text and from the other one, and so is their location. -/
theorem settings_round_trip_of_scribbled :
    configOfText scribbledSettings.value.render = .ok scribbledSettings ∧
      configOfText turnedAround.render = .ok scribbledSettings ∧
      Location.ofText (Value.object [("path", .text "\"\\\n😀"), ("kind", .text "file")]).render
        = .ok scribbledSettings.database := by
  obtain ⟨hown, hlocation, hturned⟩ := settings_round_trip
  have hinner : [(some "path", Node.text (some "\"\\\n😀")), (some "kind", .text (some "file"))].Perm
      scribbledSettings.database.members := .swap _ _ _
  have houter := List.reverse_perm (scribbledSettings.members
    [(some "path", Node.text (some "\"\\\n😀")), (some "kind", .text (some "file"))])
  refine ⟨hown _ rfl (by decide), ?_, ?_⟩
  · exact hturned _ _ _ _ rfl (by decide) hinner houter (Document.writes_render turnedAround)
  · exact hlocation _ _ _ hinner (Document.writes_render _)

end Setup

end AccessStore
