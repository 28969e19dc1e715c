import DatalogIntake.Program.Term

/-!
# Clauses

The body of a rule is a list of clauses: atoms, which may be negated, and comparisons of a variable
with a term.
-/

namespace DatalogIntake

/-- A predicate applied to terms, or the negation of one. -/
structure Atom where
  predicate : Name
  args : List Term
  isNegated : Bool
deriving DecidableEq

/-- The names of the variables among the arguments, as often as they occur. -/
def Atom.variableNames (a : Atom) : List String :=
  a.args.filterMap Term.variableName?

/-- How a comparison relates its sides. -/
inductive Operator where
  | less
  | greater
  | lessOrEqual
  | greaterOrEqual
  | equal
  | notEqual
deriving DecidableEq, Repr

namespace Operator

/-- The operators in the order in which messages list them. -/
def all : List Operator :=
  [.less, .greater, .lessOrEqual, .greaterOrEqual, .equal, .notEqual]

/-- The written form of an operator. -/
def symbol : Operator → String
  | .less => "<"
  | .greater => ">"
  | .lessOrEqual => "<="
  | .greaterOrEqual => ">="
  | .equal => "=="
  | .notEqual => "!="

/-- The operator with this written form. -/
def ofSymbol? (s : String) : Option Operator :=
  all.find? fun o => o.symbol == s

theorem ofSymbol?_symbol (o : Operator) : ofSymbol? o.symbol = some o := by
  cases o <;> decide

theorem symbol_of_ofSymbol? {s : String} {o : Operator} (h : ofSymbol? s = some o) :
    o.symbol = s := by
  simpa using List.find?_some h

end Operator

/-- A comparison of a variable, written with or without the marker, with a term. -/
structure Comparison where
  left : String
  operator : Operator
  right : Term
  left_ne : left ≠ ""
deriving DecidableEq

/-- A clause of the body of a rule. -/
inductive Clause where
  | atom (a : Atom)
  | comparison (c : Comparison)
deriving DecidableEq

namespace Clause

/-- The variables that a clause binds: those of an atom that is not negated. -/
def boundVariables : Clause → List String
  | .atom a => if a.isNegated then [] else a.variableNames
  | .comparison _ => []

/-- The variables that a clause needs bound by other clauses, in order: both sides of a comparison,
the left one first, or the arguments of a negated atom. -/
def neededVariables : Clause → List String
  | .atom a => if a.isNegated then a.variableNames else []
  | .comparison c => Variable.bare c.left :: c.right.variableName?.toList

end Clause

end DatalogIntake
