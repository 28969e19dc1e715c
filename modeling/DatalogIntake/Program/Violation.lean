import DatalogIntake.Program.Part

/-!
# Why nothing was built

A builder refuses a part that breaks a rule of the program model: a violation. A part that cannot
even be looked at in the way the builder has to look at it is misused instead.
-/

namespace DatalogIntake

/-- A rule of the program model that is broken. -/
inductive Violation where
  | notAName (role : String) (given : Part)
  | termNotFinite (context : String) (number : Binary64)
  | notATerm (context : String) (given : Part)
  | atomArgsNotList (predicate : Name)
  | negationNotBool
  | comparisonVariableEmpty
  | unknownOperator (given : Part)
  | headArgsNotList
  | headArgNotText (predicate : Name)
  | goalNotText (rule : Name)
  | headNotHead (rule : Name)
  | bodyEmpty (rule : Name)
  | bodyEntryNotClause (rule : Name)
  | descriptionNotText (query : Name)
  | whereEmpty (query : Name)
  | whereEntryNotAtom (query : Name)
  | findNotList (query : Name)
  | findEntryNotVariable (query : Name)
  | entryNotRule
  | entryNotQuery
  | duplicateQuery (query : Name)
  | atomNotObject
  | atomOfOtherType (given : Json)
  | comparisonWithoutValue
  | clauseNotObject
  | clauseOfUnknownType (given : Json)
  | headNotObject
  | ruleNotObject
  | bodyNotList
  | queryNotObject
  | whereNotList
  | programNotObject
  | rulesNotList
  | queriesNotList

/-- A way of looking at a part that the part has not. -/
inductive Misuse where
  | notWalkable (kind : String)
  | notSearchable (kind : String)
  | withoutFields (kind : String)
deriving DecidableEq

/-- Why nothing was built. -/
inductive BuildError where
  | violation (v : Violation)
  | misuse (m : Misuse)

/-- The words for a violation. -/
def Violation.message : Violation → String
  | .notAName role given => s!"{role} must be a non-empty identifier, got {given.display}."
  | .termNotFinite context number =>
    s!"Term in {context} must be a finite number, got {String.ofList number.displayText}."
  | .notATerm context given =>
    s!"Term in {context} must be a string, number or boolean, got {given.kindName}."
  | .atomArgsNotList predicate => s!"Atom {predicate.text} args must be a list."
  | .negationNotBool => "Atom isNegated must be a boolean."
  | .comparisonVariableEmpty => "Comparison variable must be a non-empty string."
  | .unknownOperator given =>
    s!"Unknown comparison operator: {given.display}. " ++
      s!"Expected one of {Text.bracketed (Operator.all.map fun o => Text.quoted o.symbol)}."
  | .headArgsNotList => "Rule head args must be a list."
  | .headArgNotText predicate => s!"Rule head {predicate.text} args must be variable names."
  | .goalNotText rule => s!"Rule {rule.text} naturalLanguageGoal must be a string."
  | .headNotHead rule => s!"Rule {rule.text} head must be a RuleHead."
  | .bodyEmpty rule => s!"Rule {rule.text} requires at least one body clause."
  | .bodyEntryNotClause rule =>
    s!"Rule {rule.text} body entries must be AtomClause or ComparisonClause."
  | .descriptionNotText query => s!"Query {query.text} description must be a string."
  | .whereEmpty query => s!"Query {query.text} requires at least one where clause."
  | .whereEntryNotAtom query => s!"Query {query.text} where entries must be AtomClause."
  | .findNotList query => s!"Query {query.text} find must be a list."
  | .findEntryNotVariable query => s!"Query {query.text} find entries must be variable names."
  | .entryNotRule => "Program rules must be Rule instances."
  | .entryNotQuery => "Program queries must be FinalQuery instances."
  | .duplicateQuery query => s!"Duplicate query name: {query.text}"
  | .atomNotObject => "Atom payload must be a dict."
  | .atomOfOtherType given => s!"Expected atom clause, got type {given.display}."
  | .comparisonWithoutValue => "Comparison clause requires a value."
  | .clauseNotObject => "Clause payload must be a dict."
  | .clauseOfUnknownType given => s!"Unknown clause type: {given.plainDisplay}"
  | .headNotObject => "Rule head payload must be a dict."
  | .ruleNotObject => "Rule payload must be a dict."
  | .bodyNotList => "Rule body must be a list."
  | .queryNotObject => "Query payload must be a dict."
  | .whereNotList => "Query where must be a list."
  | .programNotObject => "Program payload must be a dict."
  | .rulesNotList => "Program rules must be a list."
  | .queriesNotList => "Program queries must be a list."

/-- The words for a misuse. -/
def Misuse.message : Misuse → String
  | .notWalkable kind => s!"'{kind}' object is not iterable"
  | .notSearchable kind => s!"argument of type '{kind}' is not iterable"
  | .withoutFields kind => s!"'{kind}' object has no attribute 'get'"

/-- The words for why nothing was built. -/
def BuildError.message : BuildError → String
  | .violation v => v.message
  | .misuse m => m.message

end DatalogIntake
