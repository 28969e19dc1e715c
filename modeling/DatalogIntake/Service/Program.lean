import DatalogIntake.Program.Draft
import DatalogIntake.Shape.Check

/-!
# Program answers

The shapes of the programs that the service writes, and the programs they stand for. An answer that
has the shape can still break a rule of the program model; its parts are built in the same order as
those of a document, so of several breaches the same one is found.
-/

namespace DatalogIntake

/-! ### Shapes -/

/-- The fields of an atom in an answer. -/
def atomFields : Fields :=
  .field "type" (.tag "atom") false "" <|
  .field "predicate" .text true "The name of the predicate to call." <|
  .field "args" (.list .scalar) true
    ("The arguments for the predicate, which can be variables (e.g., '?HID') " ++
      "or string/number literals.") <|
  .field "isNegated" .flag false
    "If true, this atom clause is negated (e.g., !is_a_parent(P))." <|
  .none

/-- An atom in an answer. -/
def atomShape : Shape := .record "AtomModel" atomFields

/-- The fields of a comparison in an answer. -/
def comparisonFields : Fields :=
  .field "type" (.tag "comparison") true "" <|
  .field "variable" .text true
    "The variable on the left side of the comparison (e.g., '?Price')." <|
  .field "operator" (.choice (Operator.all.map Operator.symbol)) true "" <|
  .field "value" .scalar true "The value or variable to compare against." <|
  .none

/-- A comparison in an answer. -/
def comparisonShape : Shape := .record "ComparisonModel" comparisonFields

/-- A clause in an answer, told apart by its type. -/
def clauseShape : Shape :=
  .tagged "type" <|
  .branch "atom" "AtomModel" atomFields <|
  .branch "comparison" "ComparisonModel" comparisonFields <|
  .none

/-- The head of a rule in an answer. -/
def headShape : Shape :=
  .record "RuleHeadModel" <|
  .field "predicate" .text true "The name of the predicate being defined." <|
  .field "headArguments" (.list .text) true
    "Capitalized variable names used in the rule's head, like 'HID' or 'Price'." <|
  .none

/-- A rule in an answer. -/
def ruleShape : Shape :=
  .record "RuleModel" <|
  .field "name" .text true "A short, snake_case name for the rule predicate." <|
  .field "naturalLanguageGoal" .text true
    "A plain English question this rule is designed to answer." <|
  .field "ruleHead" headShape true "" <|
  .field "ruleBody" (.list clauseShape) true "" <|
  .none

/-- A query in an answer. -/
def queryShape : Shape :=
  .record "QueryModel" <|
  .field "name" .text true "A short, unique, snake_case name for this query." <|
  .field "description" .text true "" <|
  .field "find" (.list .text) true "Variable names to return in the result." <|
  .field "where" (.list atomShape) true "" <|
  .none

/-- A program in an answer. -/
def programShape : Shape :=
  .record "ProgramModel" <|
  .field "rules" (.list ruleShape) true "" <|
  .field "queries" (.list queryShape) true "" <|
  .none

/-! ### From answers to programs -/

/-- A text as a part. -/
def textPart (s : String) : Part := .json (.str s)

/-- A scalar as a part. -/
def Scalar.toPart (x : Scalar) : Part := .json x.toJson

/-- The atom that an answer stands for. -/
def atomOfAnswer? : atomFields.Carrier → Except BuildError Atom
  | (_, predicate, args, isNegated, _) =>
    AtomDraft.build {
      predicate := textPart predicate
      args := .list (List.map Scalar.toPart args)
      isNegated := .json (.bool isNegated)
    }

/-- The comparison that an answer stands for. -/
def comparisonOfAnswer? : comparisonFields.Carrier → Except BuildError Comparison
  | (_, left, operator, right, _) =>
    ComparisonDraft.build {
      left := textPart left
      operator := textPart (Subtype.val operator)
      right := Scalar.toPart right
    }

/-- The clause that an answer stands for. -/
def clauseOfAnswer? : clauseShape.Carrier → Except BuildError Clause
  | .inl atom => .atom <$> atomOfAnswer? atom
  | .inr (.inl comparison) => .comparison <$> comparisonOfAnswer? comparison

/-- The head that an answer stands for. -/
def headOfAnswer? : headShape.Carrier → Except BuildError Head
  | (predicate, args, _) =>
    HeadDraft.build {
      predicate := textPart predicate
      args := .list (List.map textPart args)
    }

/-- The rule that an answer stands for. -/
def ruleOfAnswer? : ruleShape.Carrier → Except BuildError Rule
  | (name, goal, head, body, _) => do
    let head ← headOfAnswer? head
    let body ← buildAll clauseOfAnswer? body
    RuleDraft.build {
      name := textPart name
      goal := textPart goal
      head := .head head
      body := .list (body.map Clause.toPart)
    }

/-- The query that an answer stands for. -/
def queryOfAnswer? : queryShape.Carrier → Except BuildError Query
  | (name, description, find, atoms, _) => do
    let atoms ← buildAll atomOfAnswer? atoms
    QueryDraft.build {
      name := textPart name
      description := textPart description
      find := .list (List.map textPart find)
      atoms := .list (atoms.map .atom)
    }

/-- The program that an answer stands for. -/
def programOfAnswer? : programShape.Carrier → Except BuildError Program
  | (rules, queries, _) => do
    let rules ← buildAll ruleOfAnswer? rules
    let queries ← buildAll queryOfAnswer? queries
    ProgramDraft.build {
      rules := .list (rules.map .rule)
      queries := .list (queries.map .query)
    }

end DatalogIntake
