import DatalogIntake.Service.Program
import DatalogIntake.Text.Basic

/-!
# Catalogues and payloads

The service is asked which base facts there are; it answers with a catalogue. A fact has a name,
named arguments and a description, and the catalogue is described to the service later on with one
line for each fact.

For a research goal the service streams payloads: guiding questions with the signatures of the facts
and rules that bear on them. Beside them any of the shapes of an answer can be asked of a stream;
they are found by their title.
-/

namespace DatalogIntake

/-! ### Catalogues -/

/-- A predicate that is given as facts. -/
structure BaseFact where
  name : String
  arguments : List String
  description : String
deriving DecidableEq

/-- A base fact in an answer. -/
def baseFactShape : Shape :=
  .record "BaseFactPredicate" <|
  .field "predicateName" .text true
    "The snake_case name of the fact, e.g. \"hotel_price\"." <|
  .field "arguments" (.list .text) true
    "Capitalized argument names, e.g. [\"HID\", \"Price\"]." <|
  .field "description" .text true "What this fact represents." <|
  .none

/-- A catalogue in an answer. -/
def catalogueShape : Shape :=
  .record "PredicateDiscovery" <|
  .field "baseFactSchema" (.list baseFactShape) true "" <|
  .none

/-- The base fact that an answer stands for. -/
def baseFactOfAnswer : baseFactShape.Carrier → BaseFact
  | (name, arguments, description, _) => ⟨name, arguments, description⟩

/-- The facts that an answer stands for. -/
def catalogueOfAnswer : catalogueShape.Carrier → List BaseFact
  | (facts, _) => List.map baseFactOfAnswer facts

/-- The line that describes a fact: its name, its arguments as variables, its description. -/
def BaseFact.line (f : BaseFact) : String :=
  f.name ++ "(" ++ Text.commaList (f.arguments.map fun a => "?" ++ a) ++ "): " ++ f.description

/-- The description of a catalogue, one line for each fact. -/
def describeCatalogue (facts : List BaseFact) : String :=
  "\n".intercalate (facts.map BaseFact.line)

/-! ### Payloads -/

/-- The payload of a research goal. -/
def payloadShape : Shape :=
  .record "MangleSchemaPayload" <|
  .field "guiding_questions" (.list .text) true "" <|
  .field "mangle_facts" (.list .text) true "" <|
  .field "mangle_rules" (.list .text) true "" <|
  .none

instance : DecidableEq payloadShape.Carrier :=
  inferInstanceAs (DecidableEq (List String × List String × List String × Unit))

/-- The shapes that the service answers with. -/
def serviceShapes : List Shape :=
  [payloadShape, atomShape, comparisonShape, headShape, ruleShape, queryShape, programShape,
    baseFactShape, catalogueShape]

/-- The shape with a title. -/
def shapeOfTitle? (title : String) : Option Shape :=
  serviceShapes.find? fun s => s.title == title

end DatalogIntake
