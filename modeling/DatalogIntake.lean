import DatalogIntake.Document.Reader
import DatalogIntake.Document.Writer
import DatalogIntake.Program.Rendering
import DatalogIntake.Program.Source
import DatalogIntake.Proofs.Binary64.FixedPoint
import DatalogIntake.Proofs.Binary64.PlainText
import DatalogIntake.Proofs.Binary64.ReadBack
import DatalogIntake.Proofs.Binary64.Rounding
import DatalogIntake.Proofs.Decimal.Digits
import DatalogIntake.Proofs.Decimal.Notation
import DatalogIntake.Proofs.Document.Grammar
import DatalogIntake.Proofs.Document.Members
import DatalogIntake.Proofs.Document.Misuse
import DatalogIntake.Proofs.Document.NormalForm
import DatalogIntake.Proofs.Document.RoundTrip
import DatalogIntake.Proofs.Json.Ascii
import DatalogIntake.Proofs.Json.Limits
import DatalogIntake.Proofs.Json.Nesting
import DatalogIntake.Proofs.Json.Numerals
import DatalogIntake.Proofs.Json.RoundTrip
import DatalogIntake.Proofs.Json.Strings
import DatalogIntake.Proofs.Json.Written
import DatalogIntake.Proofs.List.First
import DatalogIntake.Proofs.Program.Building
import DatalogIntake.Proofs.Program.Core
import DatalogIntake.Proofs.Program.Loading
import DatalogIntake.Proofs.Program.Missing
import DatalogIntake.Proofs.Program.Naming
import DatalogIntake.Proofs.Program.Projections
import DatalogIntake.Proofs.Program.Rendering
import DatalogIntake.Proofs.Program.Safety
import DatalogIntake.Proofs.Program.Statements
import DatalogIntake.Proofs.Program.TermReading
import DatalogIntake.Proofs.Program.Unambiguous
import DatalogIntake.Proofs.Program.Violations
import DatalogIntake.Proofs.Schema.Agreement
import DatalogIntake.Proofs.Schema.Meaning
import DatalogIntake.Proofs.Service.Answers
import DatalogIntake.Proofs.Service.Catalogue
import DatalogIntake.Proofs.Service.Documents
import DatalogIntake.Proofs.Service.Grammar
import DatalogIntake.Proofs.Service.Outcomes
import DatalogIntake.Proofs.Service.Readings
import DatalogIntake.Proofs.Service.Refusals
import DatalogIntake.Proofs.Service.RoundTrip
import DatalogIntake.Proofs.Service.Variations
import DatalogIntake.Proofs.Shape.Conforming
import DatalogIntake.Proofs.Shape.Dumps
import DatalogIntake.Proofs.Shape.Fitting
import DatalogIntake.Proofs.Shape.Variation
import DatalogIntake.Proofs.Stream.Borders
import DatalogIntake.Proofs.Stream.Calls
import DatalogIntake.Proofs.Stream.EndOfStream
import DatalogIntake.Proofs.Stream.Failures
import DatalogIntake.Proofs.Stream.Feeding
import DatalogIntake.Proofs.Stream.History
import DatalogIntake.Proofs.Stream.Invariant
import DatalogIntake.Proofs.Stream.Limits
import DatalogIntake.Proofs.Stream.Objects
import DatalogIntake.Proofs.Stream.Promptness
import DatalogIntake.Proofs.Stream.Reading
import DatalogIntake.Proofs.Stream.Redecoding
import DatalogIntake.Proofs.Stream.Release
import DatalogIntake.Proofs.Stream.Sessions
import DatalogIntake.Service.Payload
import DatalogIntake.Service.Response
import DatalogIntake.Shape.Schema
import DatalogIntake.Stream.Scan
import DatalogIntake.Stream.Session
