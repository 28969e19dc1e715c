import DatalogIntake.Binary64.Text
import DatalogIntake.Program.Part
import DatalogIntake.Program.Safety

/-!
# Program source

The source text of a program in the Datalog dialect: each rule and the one query asked for as a
statement that ends in a full stop. Variables are written without their marker and texts between
double quotes as they are; a double is written without an exponent.

A program is compiled for one of its queries: the statements of all rules in order, then that of the
query. On request a query that asks for variables it does not bind is refused.
-/

namespace DatalogIntake

/-! ### Statements -/

/-- The source of a truth value. -/
def boolSource (b : Bool) : String :=
  if b then "true" else "false"

/-- The source of a text: the bare name of a variable, or the text between double quotes. -/
def textSource (s : String) : String :=
  if Variable.isMarked s then Variable.bare s else "\"" ++ s ++ "\""

/-- The source of a term. -/
def Term.source : Term → String
  | .text s => textSource s
  | .int n => String.ofList (Decimal.ofInt n)
  | .double x => String.ofList x.plainText
  | .bool b => boolSource b

/-- A predicate with its arguments in parentheses. -/
def applied (predicate : Name) (args : List String) : String :=
  predicate.text ++ "(" ++ Text.commaList args ++ ")"

/-- The source of an atom; a negated one has an exclamation mark before it. -/
def Atom.source (a : Atom) : String :=
  (if a.isNegated then "!" else "") ++ applied a.predicate (a.args.map Term.source)

/-- The source of a comparison. -/
def Comparison.source (c : Comparison) : String :=
  Variable.bare c.left ++ " " ++ c.operator.symbol ++ " " ++ c.right.source

/-- The source of a clause. -/
def Clause.source : Clause → String
  | .atom a => a.source
  | .comparison c => c.source

/-- The source of a head. -/
def Head.source (h : Head) : String :=
  applied h.predicate (h.args.map Variable.bare)

/-- The statement of a rule. -/
def Rule.source (r : Rule) : String :=
  r.head.source ++ " :- " ++ Text.commaList (r.body.map Clause.source) ++ "."

/-- The statement of a query. -/
def Query.source (q : Query) : String :=
  Text.commaList (q.atoms.map Atom.source) ++ "."

/-! ### Values of any kind -/

/-- Why a value has no source. -/
inductive SourceError where
  | unsupportedKind (kind : String)
  | notFinite (number : Binary64)
deriving DecidableEq

/-- The words for why a value has no source. -/
def SourceError.message : SourceError → String
  | .unsupportedKind kind => s!"Unsupported term type: <class '{kind}'>"
  | .notFinite number => s!"Unsupported non-finite number: {String.ofList number.displayText}"

/-- The source of a value that need not be a term. -/
def Json.source? : Json → Except SourceError String
  | .str s => .ok (textSource s)
  | .int n => .ok (String.ofList (Decimal.ofInt n))
  | .double (.finite x) => .ok (String.ofList x.plainText)
  | .double x => .error (.notFinite x)
  | .bool b => .ok (boolSource b)
  | value => .error (.unsupportedKind value.kindName)

/-- What is shown of a long text: its first hundred characters. -/
def excerpt (s : String) : String :=
  if s.toList.length ≤ 100 then s else String.ofList (s.toList.take 100) ++ "..."

/-- A part that is no clause, where only clauses are expected. -/
structure NotAClause where
  given : Part

/-- The words for a part that is no clause. -/
def NotAClause.message (e : NotAClause) : String :=
  "Expected code to be unreachable, but got: " ++ excerpt e.given.display

/-- The source of a part that is a clause. -/
def Part.clauseSource? : Part → Except NotAClause String
  | .atom a => .ok a.source
  | .comparison c => .ok c.source
  | given => .error ⟨given⟩

/-! ### Compiling a query -/

/-- The options of a compilation: whether the variables that the query asks for are checked, and
what stands between two statements. -/
structure CompileOptions where
  checkProjection : Bool := false
  separator : String := "\n\n"

/-- Why a program was not compiled. -/
inductive CompileError where
  | queryNotFound (name : String)
  | projectionNotBound (query : Name) (missing : List String)
deriving DecidableEq

/-- The words for why a program was not compiled. -/
def CompileError.message : CompileError → String
  | .queryNotFound name => s!"Query with name \"{name}\" not found in Mangle program."
  | .projectionNotBound query missing => projectionMessage query missing

/-- The source of a program for the query with a name. The query stands alone where the rules make
no text. -/
def Program.compile (p : Program) (name : String) (options : CompileOptions) :
    Except CompileError String :=
  match p.query? name with
  | none => .error (.queryNotFound name)
  | some q =>
    if options.checkProjection && q.unboundVariables ≠ [] then
      .error (.projectionNotBound q.name q.unboundVariables)
    else
      let rules := options.separator.intercalate (p.rules.map Rule.source)
      if rules.isEmpty then .ok q.source else .ok (rules ++ options.separator ++ q.source)

end DatalogIntake
