/-
What comes of a start.

A start seeds the database through one connection behind the closed gate, so what comes of
it is what comes of seeding.  For a store that was never started, and whose connection
nothing is in the way of, that is settled completely by the rows that are there, the
markers and the defaults: `start_cases` says what is reported or which record is blamed,
what has become of each table, and in which state the gate is left.
-/
import AccessStore.Proofs.Seeding

namespace AccessStore

namespace Service

variable {h : Host} {link : Option Link} {w : Terms} {db : Database}

/-! ### Starts and seeding -/

/-- An open gate makes nothing of a start. -/
theorem start_of_open (hopen : h.service.gate.isOpen) (link : Option Link) :
    ∃ h', start h = .ok none h' ∧ content h' link = content h link := by
  have hgate : h.service.gate.start startHook h = (.ok none, h.service.gate, h) := by
    rw [Gate.start, if_pos hopen]
  refine ⟨h, ?_, rfl⟩
  rw [start, hgate]

/-- What a start does behind the gate is to seed the database. -/
theorem startHook_of_connects (hc : Connects h link w db) (hblank : db ≠ .blank)
    {result : Except (Stop CallError) (List KindReport)} {stage : Seeding.Stage}
    (hseed : Seeding.seedAll h.service.defaults ⟨h.service.registrations, w.session db⟩
      = ended result stage) :
    ∃ h', startHook h = (result, h') ∧ content h' link = stage.session.database := by
  have htold : Connects { h with journal := h.journal ++ [starting .info "start" []] } link w db :=
    hc.of_same rfl rfl
  obtain ⟨h₁, hconnect⟩ := htold
  have hservice := service_of_connect hconnect
  have hcontent (s : Session) (registrations : PerKind Registration) :
      content (release link s { h₁ with service := { h₁.service with registrations } }) link
        = s.database :=
    content_release hconnect hblank s rfl
  have htell : (tell (starting .info "start" []) : Task (Stop CallError) Unit) h
      = .ok () { h with journal := h.journal ++ [starting .info "start" []] } := rfl
  have hrun : Seeding.seedAll h₁.service.defaults ⟨h₁.service.registrations, w.session db⟩
      = ended result stage := by rw [hservice, ← hseed]
  refine ⟨_, ?_, hcontent stage.session stage.registrations⟩
  cases result <;> simp [startHook, bind, EStateM.bind, htell, seed, hconnect, hrun, ended]

/-- **A start that is not made in vain seeds the database**, and the gate goes by the result. -/
theorem start_of_closed (hclosed : h.service.gate.isOpen = false) (hc : Connects h link w db)
    (hblank : db ≠ .blank) {result : Except (Stop CallError) (List KindReport)}
    {stage : Seeding.Stage}
    (hseed : Seeding.seedAll h.service.defaults ⟨h.service.registrations, w.session db⟩
      = ended result stage) :
    ∃ h', start h = ended (result.map some) h' ∧ content h' link = stage.session.database ∧
      h'.service.gate = h.service.gate.after result := by
  obtain ⟨h₁, hhook, hcontent⟩ := startHook_of_connects hc hblank hseed
  have hgate : h.service.gate.start startHook h
      = (result.map some, h.service.gate.after result, h₁) := by
    rw [Gate.start, if_neg (by simp [hclosed]), hhook]
  rw [start, hgate]
  cases result with
  | ok reports => exact ⟨_, rfl, (content_of_same rfl rfl).trans hcontent, rfl⟩
  | error stop =>
      cases stop with
      | failed e => exact ⟨_, rfl, (content_of_same rfl rfl).trans hcontent, rfl⟩
      | panicked => exact ⟨_, rfl, (content_of_same rfl rfl).trans hcontent, rfl⟩

end Service

namespace Seeding

variable {d : Defaults} {kinds : List Kind} {db db' : Database} {kind : Kind} {r : Record}

/-- Where a start succeeds or not is a matter of what the kinds accept. -/
theorem Seeded.isOk_iff {result : Except (Stop CallError) (List KindReport)}
    (h : Seeded d kinds db result db') :
    (∃ reports, result = .ok reports) ↔ ∀ kind ∈ kinds, Accepts d db kind := by
  cases h with
  | all ha hp => exact ⟨fun _ => ha, fun _ => ⟨_, rfl⟩⟩
  | @upTo done later kind e _ hsplit ha hfresh ho hp =>
      constructor
      · rintro ⟨reports, hreports⟩
        cases hreports
      · intro hall
        have hmem : kind ∈ kinds := by
          rw [hsplit]
          exact List.mem_append_right _ List.mem_cons_self
        exact absurd (hall kind hmem hfresh) ho.not_acceptable

/-- A default that was added is found as it was given, but at the first version. -/
theorem Prepared.effect_read (hp : Prepared d kinds db db') (hkind : kind ∈ kinds)
    (hfresh : db.isMarked kind = false) (ha : Acceptable db kind (d.records kind))
    (hr : r ∈ d.records kind) :
    (Records.read kind r.key).effect .free db'
      = ⟨.ok (some (r.withVersion (some .initial))), db'⟩ := by
  have hfind : (d.records kind).find? (·.key = r.key) = some r := by
    obtain ⟨before, after, hsplit⟩ := List.append_of_mem hr
    have hdistinct := ha.distinct
    rw [hsplit, List.map_append, List.map_cons, List.nodup_append] at hdistinct
    rw [hsplit, List.find?_append, List.find?_eq_none.mpr, Option.none_or, List.find?_cons_of_pos]
    · simp
    · intro other hother
      simp only [decide_eq_true_eq]
      exact hdistinct.2.2 other.key (List.mem_map_of_mem hother) r.key List.mem_cons_self
  have hrow := hp.gained kind hkind hfresh r.key
  rw [hfind] at hrow
  have hkindOf := Defaults.kind_of_mem_records hr
  have hofRow : Records.ofRow kind (addedRow r) = .ok (r.withVersion (some .initial)) := by
    rw [← hkindOf, Records.ofRow, addedRow, Record.ofText_payload]
    simp [Version.initial]
  rw [Records.effect_read, hp.migrated.readFault?_free, hrow]
  simp [Records.inRow, hofRow]

end Seeding

/-! ### The result -/

namespace Service

variable {h : Host} {link : Option Link} {db : Database}

/-- **The outcome of a start.**  The store reports if every kind that was not prepared before accepts
its defaults; what else comes of it, either way, `Seeded` says. -/
theorem start_cases (hclosed : h.service.gate = .new)
    (hfresh : h.service.registrations = .fill .fresh) (hc : Connects h link .free db)
    (hm : db.IsMigrated) :
    ((∃ reports h', start h = .ok (some reports) h') ↔
        ∀ kind, Seeding.Accepts h.service.defaults db kind) ∧
      ∃ result h', start h = ended (result.map some) h' ∧
        h'.service.gate = Gate.after .new result ∧
        Seeding.Seeded h.service.defaults Kind.all db result (content h' link) ∧
        ∀ reports, result = .ok reports → ∀ kind, db.isMarked kind = false →
          ∀ r ∈ h.service.defaults.records kind,
            (Records.read kind r.key).effect .free (content h' link)
              = ⟨.ok (some (r.withVersion (some .initial))), content h' link⟩ := by
  have hready : Seeding.Stage.IsReady ⟨h.service.registrations, Terms.free.session db⟩ Kind.all :=
    ⟨rfl, rfl, fun kind _ => by rw [hfresh, PerKind.get_fill]⟩
  have hall : ∀ kind, kind ∈ Kind.all := fun kind => by cases kind <;> decide
  obtain ⟨result, stage, hseed, hseeded⟩ :=
    Seeding.seedKinds_cases (d := h.service.defaults) hm hready (by decide)
  obtain ⟨h', hstart, hcontent, hgate⟩ :=
    start_of_closed (by rw [hclosed]; rfl) hc hm.ne_blank hseed
  rw [← hcontent] at hseeded
  have hiff := hseeded.isOk_iff
  refine ⟨?_, result, h', hstart, by rw [hgate, hclosed], hseeded, ?_⟩
  · rw [hstart]
    constructor
    · rintro ⟨reports, h'', hok⟩ kind
      cases result with
      | ok reports => exact hiff.mp ⟨reports, rfl⟩ kind (hall kind)
      | error stop => cases hok
    · intro ha
      obtain ⟨reports, rfl⟩ := hiff.mpr fun kind _ => ha kind
      exact ⟨reports, h', rfl⟩
  · rintro reports rfl kind hkind r hr
    cases hseeded with
    | all ha hp => exact hp.effect_read (hall kind) hkind (ha kind (hall kind) hkind) hr

/-- A store in memory, never started, with one user and the same role twice among its defaults. -/
def withTwinRoles : Host where
  service := .inMemory { users := [{ id := "ada" }], roles := [{ id := "dev" }, { id := "dev" }] }
  disk := { entries := .empty }

/-- The second of the twins is blamed; the user stays, and the first twin does not. -/
theorem start_of_twins : ∃ h',
    start withTwinRoles
        = .error (.failed (.seeding .role (.duplicateKey .role ["dev"]))) h' ∧
      h'.service.gate = .failed ∧
      Seeding.Seeded withTwinRoles.service.defaults Kind.all .migrated
        (.error (.failed (.seeding .role (.duplicateKey .role ["dev"])))) (content h' none) := by
  obtain ⟨-, result, h', hstart, hgate, hseeded, -⟩ :=
    start_cases (h := withTwinRoles) rfl rfl (connects_memory rfl) Database.isMigrated_migrated
  have hfails : ∃ h'', start withTwinRoles
      = .error (.failed (.seeding .role (.duplicateKey .role ["dev"]))) h'' := ⟨_, rfl⟩
  obtain ⟨h'', hfails⟩ := hfails
  rw [hstart] at hfails
  cases result with
  | ok reports => cases hfails
  | error stop =>
      have hstop : stop = .failed (.seeding .role (.duplicateKey .role ["dev"])) :=
        (EStateM.Result.error.inj hfails).1
      subst hstop
      exact ⟨h', hstart, hgate, hseeded⟩

end Service

end AccessStore
