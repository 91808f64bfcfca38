/-
The gate of a store.

A store answers calls only while its gate is open.  The gate opens when a start hook
has succeeded and closes on a stop.  A start of an open gate does nothing.  A hook that
fails leaves the gate closed for good until a later start succeeds; a hook that panics
leaves the gate as it was.
-/
import AccessStore.Failure

namespace AccessStore

/-- The state of a gate. -/
inductive Gate
  | new
  | started
  | stopped
  | failed
  deriving DecidableEq, Repr

namespace Gate

/-- The name of the state. -/
def name : Gate → String
  | new => "New"
  | started => "Started"
  | stopped => "Stopped"
  | failed => "Failed"

/-- Calls are let through. -/
def isOpen (gate : Gate) : Bool := gate = started

/-- The state after a hook that was run. -/
def after {ε α : Type} (gate : Gate) : Except (Stop ε) α → Gate
  | .ok _ => started
  | .error (.failed _) => failed
  | .error .panicked => gate

/-- Open the gate, unless it is open, by running the hook on the state `s`.  The result is what the
hook gives, or nothing if there was no need to run it. -/
def start {σ ε α : Type} (gate : Gate) (hook : σ → Except (Stop ε) α × σ) (s : σ) :
    Except (Stop ε) (Option α) × Gate × σ :=
  if gate.isOpen then (.ok none, gate, s)
  else
    let (result, s) := hook s
    (result.map some, gate.after result, s)

/-- Close the gate; false if it was not open. -/
def stop (gate : Gate) : Bool × Gate :=
  if gate.isOpen then (true, stopped) else (false, gate)

end Gate

end AccessStore
