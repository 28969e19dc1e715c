import DatalogIntake.Json.Reader
import DatalogIntake.Service.Payload
import DatalogIntake.Service.Program

/-!
# Responses of the service

A response is a text. It is read as JSON, checked against the shape that was asked for, and turned
into what it stands for; the first of these steps that fails gives the error.
-/

namespace DatalogIntake

/-- What a response is about. -/
inductive Subject where
  | program
  | catalogue
deriving DecidableEq

/-- The words for what a response is about. -/
def Subject.words : Subject → String
  | .program => "Program response"
  | .catalogue => "Predicate discovery response"

/-- Why a response was refused. -/
inductive ResponseError where
  | unreadable (cause : Json.Cause) (place : Json.Place)
  | overrun (e : Json.Overrun)
  | misshapen (subject : Subject) (faults : Faults)
  | invalid (e : BuildError)

/-- The words for why a response was refused. -/
def ResponseError.message : ResponseError → String
  | .unreadable cause place =>
    "Response is not valid JSON: " ++ (Json.ReadError.malformed cause place).message
  | .overrun e => e.message
  | .misshapen subject faults => s!"{subject.words} has {faults.count} error(s)."
  | .invalid e => e.message

/-- The value of a response, in the room that the reader has. -/
def readResponse (room : Nat) (text : String) : Except ResponseError Json :=
  match Json.ofText? room text with
  | .ok value => .ok value
  | .error (.malformed cause place) => .error (.unreadable cause place)
  | .error (.overrun e) => .error (.overrun e)

/-- The program that a response stands for. -/
def programOfResponse? (room : Nat) (text : String) : Except ResponseError Program := do
  let value ← readResponse room text
  match programShape.check value with
  | .error faults => .error (.misshapen .program faults)
  | .ok answer => (programOfAnswer? answer).mapError .invalid

/-- The base facts that a response stands for. -/
def catalogueOfResponse? (room : Nat) (text : String) : Except ResponseError (List BaseFact) := do
  let value ← readResponse room text
  match catalogueShape.check value with
  | .error faults => .error (.misshapen .catalogue faults)
  | .ok answer => .ok (catalogueOfAnswer answer)

end DatalogIntake
