import DatalogIntake.Json.Reader
import DatalogIntake.Shape.Check
import DatalogIntake.Text.Quoted

/-!
# Candidates and diagnostics

A candidate is the text from an opening brace to the brace that closes it. It is decoded by reading
it as JSON and checking the value against a shape. A candidate that fails is rejected, and the
stream goes on; one that goes beyond a limit of the reader is not rejected, and ends the stream.

Beside its objects the stream reports candidates that were rejected, and text that was left over at
the end. A collector keeps the reports; a log gets one record for each.
-/

namespace DatalogIntake

/-- Why a candidate was rejected. -/
inductive Rejection where
  | unreadable (cause : Json.Cause) (place : Json.Place)
  | misshapen (title : String) (faults : Faults)
deriving DecidableEq

/-- The words for a rejection. -/
def Rejection.message : Rejection → String
  | .unreadable cause place =>
    "Failed to parse JSON object: " ++ (Json.ReadError.malformed cause place).message
  | .misshapen title faults =>
    s!"Schema validation failed for {title}: {faults.count} error(s)"

/-- What came of decoding a candidate. -/
inductive Decoded (α : Type) where
  | object (value : α)
  | rejected (e : Rejection)
  | escaped (e : Json.Overrun)
deriving DecidableEq

/-- Decodes a candidate as a value of a shape, in the room that the reader has. -/
def Shape.decode (shape : Shape) (room : Nat) (candidate : List Char) : Decoded shape.Carrier :=
  match Json.ofChars? room candidate with
  | .error (.malformed cause place) => .rejected (.unreadable cause place)
  | .error (.overrun e) => .escaped e
  | .ok value =>
    match shape.check value with
    | .ok x => .object x
    | .error faults => .rejected (.misshapen shape.title faults)

/-! ### Reports -/

/-- A report about a stream. -/
inductive Diagnostic where
  | rejected (candidate : List Char) (e : Rejection)
  | trailing (leftover : List Char)
deriving DecidableEq

/-- The words for text that was left over. -/
def trailingMessage (leftover : List Char) : String :=
  s!"Stream ended with unprocessed data in buffer ({leftover.length} chars)"

namespace Diagnostic

/-- The summary of a report. -/
def message : Diagnostic → String
  | .rejected _ e => e.message
  | .trailing leftover => trailingMessage leftover

/-- The text that a report is about. -/
def candidate : Diagnostic → List Char
  | .rejected candidate _ => candidate
  | .trailing leftover => leftover

/-- The error that a report carries. -/
def rejection? : Diagnostic → Option Rejection
  | .rejected _ e => some e
  | .trailing _ => none

end Diagnostic

/-- The errors of a list of reports. -/
def rejectionsOf (reports : List Diagnostic) : List Rejection :=
  reports.filterMap Diagnostic.rejection?

/-! ### Logs -/

/-- How serious a record of a log is. -/
inductive LogLevel where
  | warning
  | error
deriving DecidableEq

/-- The written form of a level. -/
def LogLevel.word : LogLevel → String
  | .warning => "WARNING"
  | .error => "ERROR"

/-- A record of a log. -/
structure LogRecord where
  channel : String
  level : LogLevel
  message : String
deriving DecidableEq

/-- The channel of the log where none is named. -/
def defaultChannel : String := "mangle_ir.stream"

/-- The record of a report: the summary and the text quoted, and after them the error. -/
def Diagnostic.toLogRecord (channel : String) (d : Diagnostic) : LogRecord :=
  let text := d.message ++ ": " ++ Text.quoted (String.ofList d.candidate)
  match d.rejection? with
  | none => ⟨channel, .warning, text⟩
  | some e => ⟨channel, .error, text ++ " (" ++ e.message ++ ")"⟩

end DatalogIntake
