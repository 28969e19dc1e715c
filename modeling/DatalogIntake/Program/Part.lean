import DatalogIntake.Json.Writer
import DatalogIntake.Program.Basic

/-!
# Parts

Programs are built from the outside in: a caller offers a part for every field, and the builder
checks whether it is of the right kind. A part is a JSON value, a list or a tuple of parts, or
something built before.
-/

namespace DatalogIntake

/-- What a caller can offer for a field. -/
inductive Part where
  | json (value : Json)
  | list (parts : List Part)
  | tuple (parts : List Part)
  | atom (a : Atom)
  | comparison (c : Comparison)
  | head (h : Head)
  | rule (r : Rule)
  | query (q : Query)
  | program (p : Program)

namespace Part

/-- The name of the kind of a part. -/
def kindName : Part → String
  | .json value => value.kindName
  | .list _ => "list"
  | .tuple _ => "tuple"
  | .atom _ => "AtomClause"
  | .comparison _ => "ComparisonClause"
  | .head _ => "RuleHead"
  | .rule _ => "Rule"
  | .query _ => "FinalQuery"
  | .program _ => "Program"

mutual

/-- A part as messages show it; what has been built is shown by its kind. -/
def display : Part → String
  | .json value => value.display
  | .list parts => Text.bracketed (displayAll parts)
  | .tuple parts => Text.parenthesized (displayAll parts)
  | .atom _ => "AtomClause"
  | .comparison _ => "ComparisonClause"
  | .head _ => "RuleHead"
  | .rule _ => "Rule"
  | .query _ => "FinalQuery"
  | .program _ => "Program"

/-- Parts as messages show them. -/
def displayAll : List Part → List String
  | [] => []
  | p :: rest => display p :: displayAll rest

end

/-- The items of a list or a tuple. -/
def items? : Part → Option (List Part)
  | .json (.arr items) => some (items.map .json)
  | .list parts => some parts
  | .tuple parts => some parts
  | _ => none

/-- What a walk over a part meets: the items of a list or a tuple, the characters of a text, the
keys of an object. -/
def elements? : Part → Option (List Part)
  | .json (.str s) => some (s.toList.map fun c => .json (.str (String.singleton c)))
  | .json (.obj fields) => some (fields.map fun f => .json (.str f.1))
  | p => p.items?

/-- Null, false, zero, and what holds nothing. -/
def isEmpty : Part → Bool
  | .json .null => true
  | .json (.bool b) => !b
  | .json (.int n) => n == 0
  | .json (.double (.finite x)) => x.mantissa == 0
  | .json (.str s) => s.isEmpty
  | .json (.arr items) => items.isEmpty
  | .json (.obj fields) => fields.isEmpty
  | .list parts => parts.isEmpty
  | .tuple parts => parts.isEmpty
  | _ => false

end Part

/-- A clause as a part. -/
def Clause.toPart : Clause → Part
  | .atom a => .atom a
  | .comparison c => .comparison c

end DatalogIntake
