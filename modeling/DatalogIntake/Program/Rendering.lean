import DatalogIntake.Document.Writer
import DatalogIntake.Json.Reader
import DatalogIntake.Program.Source

/-!
# Rendering step by step

The source of a program, put together from that of its parts, with every way in which a step can
fail: a value of a kind that has no source, a number that is not finite, an integer with more digits
than are written out, a part that is no clause. The digits of an integer are limited in the same way
where one is read and where one is written.
-/

namespace DatalogIntake

/-- Why a program was not rendered. -/
inductive RenderError where
  | refused (e : CompileError)
  | withoutSource (e : SourceError)
  | longInteger
  | notAClause (e : NotAClause)

/-- The words for why a program was not rendered. -/
def RenderError.message : RenderError → String
  | .refused e => e.message
  | .withoutSource e => e.message
  | .longInteger =>
    s!"Exceeds the limit ({Json.maxIntegerDigits} digits) for integer string conversion; " ++
      "use sys.set_int_max_str_digits() to increase the limit"
  | .notAClause e => e.message

/-- The source of a value. -/
def Json.render? (value : Json) : Except RenderError String :=
  match value with
  | .int n =>
    if (Decimal.ofNat n.natAbs).length ≤ Json.maxIntegerDigits then
      value.source?.mapError .withoutSource
    else .error .longInteger
  | _ => value.source?.mapError .withoutSource

/-- The source of an atom. -/
def Atom.render? (a : Atom) : Except RenderError String := do
  let args ← a.args.mapM fun t => t.toJson.render?
  return (if a.isNegated then "!" else "") ++ applied a.predicate args

/-- The source of a comparison. -/
def Comparison.render? (c : Comparison) : Except RenderError String := do
  let right ← c.right.toJson.render?
  return Variable.bare c.left ++ " " ++ c.operator.symbol ++ " " ++ right

/-- The source of a part that is a clause. -/
def Part.renderClause? : Part → Except RenderError String
  | .atom a => a.render?
  | .comparison c => c.render?
  | given => .error (.notAClause ⟨given⟩)

/-- The statement of a rule. -/
def Rule.render? (r : Rule) : Except RenderError String := do
  let body ← r.body.mapM fun c => c.toPart.renderClause?
  return r.head.source ++ " :- " ++ Text.commaList body ++ "."

/-- The statement of a query. -/
def Query.render? (q : Query) : Except RenderError String := do
  let atoms ← q.atoms.mapM Atom.render?
  return Text.commaList atoms ++ "."

/-- The source of a program for the query with a name. The query is looked up, and on request its
variables are checked, before anything is rendered. -/
def Program.render? (p : Program) (name : String) (options : CompileOptions) :
    Except RenderError String :=
  match p.query? name with
  | none => .error (.refused (.queryNotFound name))
  | some q =>
    if options.checkProjection && q.unboundVariables ≠ [] then
      .error (.refused (.projectionNotBound q.name q.unboundVariables))
    else do
      let statements ← p.rules.mapM Rule.render?
      let statement ← q.render?
      let rules := options.separator.intercalate statements
      return if rules.isEmpty then statement else rules ++ options.separator ++ statement

end DatalogIntake
