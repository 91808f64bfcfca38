/-
Events.

What the store does is told as it happens, in events.  An event has a level of
severity and a list of named details, and is written on one line.  How long something
took is a detail like any other, but only whoever writes the line knows the time, so
an event marks the place and the writer fills it in.
-/

namespace AccessStore

/-- The release of this library. -/
def release : String := "0.1.0"

/-- How severe an event is, gravest first. -/
inductive Level
  | error
  | warn
  | info
  | debug
  | trace
  deriving DecidableEq, Repr

namespace Level

/-- All levels, gravest first. -/
def all : List Level := [error, warn, info, debug, trace]

/-- The name of a level in settings. -/
def name : Level → String
  | error => "error"
  | warn => "warn"
  | info => "info"
  | debug => "debug"
  | trace => "trace"

/-- The name of a level at the start of a line. -/
def heading : Level → String
  | error => "ERROR"
  | warn => "WARN"
  | info => "INFO"
  | debug => "DEBUG"
  | trace => "TRACE"

/-- The place of a level in the order of severity. -/
def rank : Level → Nat
  | error => 1
  | warn => 2
  | info => 3
  | debug => 4
  | trace => 5

/-- Events of level `l` are wanted by whoever asks for events up to `limit`. -/
def upTo (limit l : Level) : Bool := l.rank ≤ limit.rank

end Level

/-- The value of a detail. -/
inductive Detail
  | text (s : String)
  /-- How long it took. -/
  | elapsed
  deriving DecidableEq, Repr

/-- Something that happened. -/
structure Event where
  level : Level
  details : List (String × Detail)
  deriving DecidableEq, Repr

namespace Event

/-- An event by its name, the part of the store it happens in, and further details. -/
def of (level : Level) (name part : String) (details : List (String × Detail)) : Event :=
  ⟨level, ("event", .text name) :: ("module", .text part) :: details⟩

/-- The details on one line; `elapsed` is the time to fill in. -/
def text (elapsed : String) (e : Event) : String :=
  " ".intercalate (e.details.map fun
    | (name, .text s) => name ++ "=" ++ s
    | (name, .elapsed) => name ++ "=" ++ elapsed)

/-- The line that is written. -/
def line (elapsed : String) (e : Event) : String := e.level.heading ++ " " ++ e.text elapsed

end Event

end AccessStore
