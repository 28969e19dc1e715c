import DatalogIntake.Json.Writer
import DatalogIntake.Program.Basic

/-!
# Program documents

A program is stored as a JSON document. Every field is written, also one that has its default, in
a fixed order; clauses carry their type. Terms keep their kind: an integer, a double and a truth
value are written differently even where they are equal as numbers.
-/

namespace DatalogIntake

/-- The value of a term. -/
def Term.toJson : Term → Json
  | .text s => .str s
  | .int n => .int n
  | .double x => .double (.finite x)
  | .bool b => .bool b

/-- The document of an atom. -/
def Atom.toJson (a : Atom) : Json :=
  .obj [("type", .str "atom"), ("predicate", .str a.predicate.text),
    ("args", .arr (a.args.map Term.toJson)), ("isNegated", .bool a.isNegated)]

/-- The document of a comparison. -/
def Comparison.toJson (c : Comparison) : Json :=
  .obj [("type", .str "comparison"), ("variable", .str c.left),
    ("operator", .str c.operator.symbol), ("value", c.right.toJson)]

/-- The document of a clause. -/
def Clause.toJson : Clause → Json
  | .atom a => a.toJson
  | .comparison c => c.toJson

/-- The document of a head. -/
def Head.toJson (h : Head) : Json :=
  .obj [("predicate", .str h.predicate.text), ("args", .arr (h.args.map .str))]

/-- The document of a rule. -/
def Rule.toJson (r : Rule) : Json :=
  .obj [("name", .str r.name.text), ("naturalLanguageGoal", .str r.goal), ("head", r.head.toJson),
    ("body", .arr (r.body.map Clause.toJson))]

/-- The document of a query. -/
def Query.toJson (q : Query) : Json :=
  .obj [("name", .str q.name.text), ("description", .str q.description),
    ("find", .arr (q.find.map .str)), ("where", .arr (q.atoms.map Atom.toJson))]

/-- The document of a program. -/
def Program.toJson (p : Program) : Json :=
  .obj [("rules", .arr (p.rules.map Rule.toJson)), ("queries", .arr (p.queries.map Query.toJson))]

/-- The indentation of a document where none is asked for. -/
def Program.defaultIndent : Option Int := some 2

/-- The text of the document of a program: with an indentation over lines, without one on a single
line. -/
def Program.toText (p : Program) (indent : Option Int) : String :=
  p.toJson.toText (.ofIndent indent)

end DatalogIntake
