import DatalogIntake.Stream.Trailing

/-!
# Sources and runs

A source hands out chunks one by one and may fail before a chunk; some sources are to be closed
when they are no longer needed, and closing may fail as well. A run of the extraction asks a source
for chunks, hands objects to a consumer, and ends in one of three ways. What it does on the way is
a list of events, in the order in which they happen.
-/

namespace DatalogIntake

/-- A failure of a source, in words of its own. -/
structure SourceFailure where
  message : String
deriving DecidableEq

/-- Whether a source is to be closed, and whether closing it fails. -/
inductive Closing where
  | never
  | closes
  | fails (e : SourceFailure)
deriving DecidableEq

/-- A source of chunks; it may fail once a number of them have been taken. -/
structure Source where
  chunks : List Json
  failure : Option (Nat × SourceFailure)
  closing : Closing

/-- The failure of a source before the next chunk, once so many have been taken from it. -/
def Source.failureAt? (s : Source) (pulled : Nat) : Option SourceFailure :=
  match s.failure with
  | some (n, e) => if n = pulled then some e else none
  | none => none

/-- Why a run failed. -/
inductive RunError where
  | source (e : SourceFailure)
  | feed (e : FeedError)
  | trailing (e : TrailingData)
  | close (e : SourceFailure)
deriving DecidableEq

/-- The words for why a run failed. -/
def RunError.message : RunError → String
  | .source e => e.message
  | .feed e => e.message
  | .trailing e => e.message
  | .close e => e.message

/-- How a run ends: the source has no more chunks, the consumer wants no more objects, or an
error. -/
inductive Ending where
  | exhausted
  | abandoned
  | failed (e : RunError)
deriving DecidableEq

/-- What happens in a run: the source is asked for a chunk and gives one, fails, or has no more; an
object is handed to the consumer; something is reported or warned about; the source is closed. -/
inductive Event (α : Type) where
  | took
  | broke (e : SourceFailure)
  | drained
  | delivered (object : α)
  | reported (d : Diagnostic)
  | warned (w : TrailingData)
  | closed
deriving DecidableEq

/-- What a run leaves: what has happened, and how it ended. -/
structure Run (α : Type) where
  events : List (Event α)
  ending : Ending
deriving DecidableEq

/-! ### Closing -/

/-- What happens when a source is closed. -/
def Closing.events {α : Type} : Closing → List (Event α)
  | .never => []
  | .closes => [.closed]
  | .fails _ => [.closed]

/-- The end of a run after closing the source: closing that fails takes the place of any other
end. -/
def Closing.ending (closing : Closing) (ending : Ending) : Ending :=
  match closing with
  | .fails e => .failed (.close e)
  | _ => ending

/-! ### Events -/

/-- An object handed to the consumer, with the number of chunks taken until then. -/
structure Delivery (α : Type) where
  object : α
  pulled : Nat
deriving DecidableEq

namespace Event

variable {α : Type}

/-- A chunk was taken. -/
def isTook : Event α → Bool
  | .took => true
  | _ => false

/-- The source was closed. -/
def isClosed : Event α → Bool
  | .closed => true
  | _ => false

/-- The object that was handed over. -/
def object? : Event α → Option α
  | .delivered a => some a
  | _ => none

/-- What was reported. -/
def report? : Event α → Option Diagnostic
  | .reported d => some d
  | _ => none

/-- What was warned about. -/
def warning? : Event α → Option TrailingData
  | .warned w => some w
  | _ => none

/-- The objects handed over, once so many chunks have been taken. -/
def deliveries (pulled : Nat) : List (Event α) → List (Delivery α)
  | [] => []
  | .took :: events => deliveries (pulled + 1) events
  | .delivered a :: events => ⟨a, pulled⟩ :: deliveries pulled events
  | _ :: events => deliveries pulled events

end Event

namespace Run

variable {α : Type}

/-- The objects handed over. -/
def deliveries (r : Run α) : List (Delivery α) :=
  Event.deliveries 0 r.events

/-- How many chunks were taken. -/
def pulled (r : Run α) : Nat :=
  r.events.countP Event.isTook

/-- How often the source was closed. -/
def closed (r : Run α) : Nat :=
  r.events.countP Event.isClosed

/-- The reports. -/
def reports (r : Run α) : List Diagnostic :=
  r.events.filterMap Event.report?

/-- The warnings. -/
def warnings (r : Run α) : List TrailingData :=
  r.events.filterMap Event.warning?

end Run

end DatalogIntake
