import DatalogIntake.Stream.Scanner
import DatalogIntake.Text.Basic

/-!
# The end of a stream

When a stream ends the scanner is finished. Text other than blanks that no object has used up is
reported once, and a policy says what else is done about it.
-/

namespace DatalogIntake

/-- What is done about text that is left over at the end. -/
inductive TrailingPolicy where
  | warn
  | error
  | ignore
deriving DecidableEq

namespace TrailingPolicy

/-- The policies in the order in which messages list them. -/
def all : List TrailingPolicy :=
  [.error, .ignore, .warn]

/-- The written form of a policy. -/
def word : TrailingPolicy → String
  | .warn => "warn"
  | .error => "error"
  | .ignore => "ignore"

end TrailingPolicy

/-- A value that is no policy. -/
structure UnknownPolicy where
  given : Json

/-- The words for a value that is no policy. -/
def UnknownPolicy.message (e : UnknownPolicy) : String :=
  s!"Unknown trailing data policy: {e.given.plainDisplay}. " ++
    s!"Expected one of {Text.bracketed (TrailingPolicy.all.map fun p => Text.quoted p.word)}."

/-- The policy with a written form. -/
def TrailingPolicy.ofJson? (given : Json) : Except UnknownPolicy TrailingPolicy :=
  match all.find? fun p => given == .str p.word with
  | some p => .ok p
  | none => .error ⟨given⟩

/-- Text that was left over, as an error or a warning. -/
structure TrailingData where
  leftover : List Char
deriving DecidableEq

/-- The words for text that was left over. -/
def TrailingData.message (e : TrailingData) : String :=
  trailingMessage e.leftover

/-- What finishing a scanner leaves: the scanner, a report, a warning, and the text left over. -/
structure Finished where
  scanner : Scanner
  report : Option Diagnostic
  warning : Option TrailingData
  outcome : Except TrailingData (List Char)

/-- Finishes a scanner. The first time, text other than blanks is reported and then dealt with by
the policy; later there is nothing to do. -/
def Scanner.finish (policy : TrailingPolicy) (s : Scanner) : Finished :=
  let ended := { s with isFinished := true }
  if s.isFinished || Text.isBlankText s.buffer then ⟨ended, none, none, .ok s.buffer⟩
  else
    let data : TrailingData := ⟨s.buffer⟩
    let report := some (.trailing s.buffer)
    match policy with
    | .warn => ⟨ended, report, some data, .ok s.buffer⟩
    | .error => ⟨ended, report, none, .error data⟩
    | .ignore => ⟨ended, report, none, .ok s.buffer⟩

end DatalogIntake
