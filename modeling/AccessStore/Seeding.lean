/-
Seeding a store with its defaults.

When a store starts it registers the four kinds one after another, each with a hook
that adds the kind's default records.  The first kind that cannot be prepared ends the
start; the kinds before it stay prepared.  The report says for each kind whether it was
the first use and how many records were added.
-/
import AccessStore.Defaults
import AccessStore.Registration

namespace AccessStore

/-- What a start did for one kind. -/
structure KindReport where
  kind : Kind
  /-- The kind had not been prepared in this database before. -/
  firstUse : Bool
  /-- How many defaults were added. -/
  seeded : Nat
  deriving DecidableEq, Repr

namespace Seeding

/-- A store's registrations, and its session while it starts. -/
structure Stage where
  registrations : PerKind Registration
  session : Session

/-- The event of seeding a kind. -/
def announcement (kind : Kind) (count : Nat) : Event :=
  .of .info "store_bootstrap" "bootstrap"
    [("status", .text "start"), ("kind", .text kind.table), ("count", .text (Text.decimal count))]

/-- Add these records; an empty list is passed over in silence. -/
def hook (kind : Kind) (records : List Record) : Hook where
  announcement := if records.isEmpty then none else some (announcement kind records.length)
  additions := records

/-- Register a kind with its defaults. -/
def seedKind (defaults : Defaults) (kind : Kind) : EStateM (Stop CallError) Stage KindReport :=
  fun stage =>
    let records := defaults.records kind
    let attempt :=
      (stage.registrations.get kind).register kind (hook kind records) stage.session
    let stage := ⟨stage.registrations.set kind attempt.registration, attempt.session⟩
    match attempt.result with
    | .ok first => .ok ⟨kind, first, if first then records.length else 0⟩ stage
    | .error stop => .error (stop.map (.seeding kind)) stage

/-- Register these kinds in order. -/
def seedKinds (defaults : Defaults) : List Kind → EStateM (Stop CallError) Stage (List KindReport)
  | [] => pure []
  | kind :: rest => do
      let report ← seedKind defaults kind
      let reports ← seedKinds defaults rest
      pure (report :: reports)

/-- Register all kinds in order. -/
def seedAll (defaults : Defaults) : EStateM (Stop CallError) Stage (List KindReport) :=
  seedKinds defaults Kind.all

end Seeding

end AccessStore
