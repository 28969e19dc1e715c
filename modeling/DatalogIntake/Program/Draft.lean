import DatalogIntake.Program.Violation

/-!
# Drafts

A draft holds the parts offered for the fields of a clause, a head, a rule, a query or a program;
fields that may be left out have a default. Building a draft checks its fields one after the other
and stops at the first that is refused.
-/

namespace DatalogIntake

/-! ### Names, terms and lists -/

/-- A refusal for a broken rule. -/
def refuse {α : Type} (v : Violation) : Except BuildError α :=
  .error (.violation v)

/-- The name that a part is. -/
def Name.ofPart? (role : String) (given : Part) : Except BuildError Name :=
  match given with
  | .json (.str s) =>
    match Name.ofText? s with
    | some name => .ok name
    | none => refuse (.notAName role given)
  | _ => refuse (.notAName role given)

/-- The term that a part is. -/
def Term.ofPart? (context : String) (given : Part) : Except BuildError Term :=
  match given with
  | .json (.str s) => .ok (.text s)
  | .json (.bool b) => .ok (.bool b)
  | .json (.int n) => .ok (.int n)
  | .json (.double (.finite x)) => .ok (.double x)
  | .json (.double x) => refuse (.termNotFinite context x)
  | _ => refuse (.notATerm context given)

namespace Part

/-- The items of a list or a tuple; any other part is a violation. -/
def itemsOr (given : Part) (v : Violation) : Except BuildError (List Part) :=
  match given.items? with
  | some items => .ok items
  | none => refuse v

/-- What a walk over the part meets. -/
def walk (given : Part) : Except BuildError (List Part) :=
  match given.elements? with
  | some elements => .ok elements
  | none => .error (.misuse (.notWalkable given.kindName))

/-- A text; any other part is a violation. -/
def textOr (given : Part) (v : Violation) : Except BuildError String :=
  match given with
  | .json (.str s) => .ok s
  | _ => refuse v

/-- A text that is not empty; any other part is a violation. -/
def nonemptyTextOr (given : Part) (v : Violation) : Except BuildError { s : String // s ≠ "" } :=
  match given with
  | .json (.str s) => if h : s ≠ "" then .ok ⟨s, h⟩ else refuse v
  | _ => refuse v

/-- A truth value; any other part is a violation. -/
def boolOr (given : Part) (v : Violation) : Except BuildError Bool :=
  match given with
  | .json (.bool b) => .ok b
  | _ => refuse v

end Part

/-- Builds every item of a list, up to the first that is refused. -/
def buildAll {α β : Type} (build : α → Except BuildError β) : List α → Except BuildError (List β)
  | [] => .ok []
  | a :: rest => do
    let b ← build a
    let bs ← buildAll build rest
    return b :: bs

/-! ### Clauses -/

/-- The parts of an atom. -/
structure AtomDraft where
  predicate : Part
  args : Part := .list []
  isNegated : Part := .json (.bool false)

/-- The parts of a comparison. -/
structure ComparisonDraft where
  left : Part
  operator : Part
  right : Part

/-- The atom of a draft. -/
def AtomDraft.build (d : AtomDraft) : Except BuildError Atom := do
  let predicate ← Name.ofPart? "Atom predicate" d.predicate
  let items ← d.args.itemsOr (.atomArgsNotList predicate)
  let args ← buildAll (Term.ofPart? s!"atom {predicate.text}") items
  let isNegated ← d.isNegated.boolOr .negationNotBool
  return ⟨predicate, args, isNegated⟩

/-- The operator that a part is. -/
def Operator.ofPart? (given : Part) : Except BuildError Operator :=
  match given with
  | .json (.str s) =>
    match Operator.ofSymbol? s with
    | some o => .ok o
    | none => refuse (.unknownOperator given)
  | _ => refuse (.unknownOperator given)

/-- The comparison of a draft. -/
def ComparisonDraft.build (d : ComparisonDraft) : Except BuildError Comparison := do
  let left ← d.left.nonemptyTextOr .comparisonVariableEmpty
  let operator ← Operator.ofPart? d.operator
  let right ← Term.ofPart? s!"comparison on {left.val}" d.right
  return ⟨left.val, operator, right, left.property⟩

/-! ### Rules -/

/-- The parts of a head. -/
structure HeadDraft where
  predicate : Part
  args : Part := .list []

/-- The parts of a rule. -/
structure RuleDraft where
  name : Part
  head : Part
  body : Part
  goal : Part := .json (.str "")

/-- The head of a draft. -/
def HeadDraft.build (d : HeadDraft) : Except BuildError Head := do
  let predicate ← Name.ofPart? "Rule head predicate" d.predicate
  let items ← d.args.itemsOr .headArgsNotList
  let args ← buildAll (·.textOr (.headArgNotText predicate)) items
  return ⟨predicate, args⟩

/-- The clause that a part is. -/
def Clause.ofPart? (rule : Name) (given : Part) : Except BuildError Clause :=
  match given with
  | .atom a => .ok (.atom a)
  | .comparison c => .ok (.comparison c)
  | _ => refuse (.bodyEntryNotClause rule)

/-- The head that a part is. -/
def Head.ofPart? (rule : Name) (given : Part) : Except BuildError Head :=
  match given with
  | .head h => .ok h
  | _ => refuse (.headNotHead rule)

/-- The rule of a draft. A body that holds nothing is refused before its entries are looked at. -/
def RuleDraft.build (d : RuleDraft) : Except BuildError Rule := do
  let name ← Name.ofPart? "Rule name" d.name
  let goal ← d.goal.textOr (.goalNotText name)
  let head ← Head.ofPart? name d.head
  if d.body.isEmpty then refuse (.bodyEmpty name)
  let entries ← d.body.walk
  let body ← buildAll (Clause.ofPart? name) entries
  if h : body ≠ [] then return ⟨name, goal, head, body, h⟩
  else refuse (.bodyEmpty name)

/-! ### Queries -/

/-- The parts of a query. -/
structure QueryDraft where
  name : Part
  atoms : Part
  find : Part := .list []
  description : Part := .json (.str "")

/-- The atom that a part is. -/
def Atom.ofPart? (query : Name) (given : Part) : Except BuildError Atom :=
  match given with
  | .atom a => .ok a
  | _ => refuse (.whereEntryNotAtom query)

/-- The query of a draft. Atoms that hold nothing are refused before their entries are looked at. -/
def QueryDraft.build (d : QueryDraft) : Except BuildError Query := do
  let name ← Name.ofPart? "Query name" d.name
  let description ← d.description.textOr (.descriptionNotText name)
  if d.atoms.isEmpty then refuse (.whereEmpty name)
  let entries ← d.atoms.walk
  let atoms ← buildAll (Atom.ofPart? name) entries
  let asked ← d.find.itemsOr (.findNotList name)
  let find ← buildAll (·.nonemptyTextOr (.findEntryNotVariable name)) asked
  if h : atoms ≠ [] then
    return {
      name := name
      description := description
      find := find.map (·.val)
      atoms := atoms
      atoms_ne := h
      find_ne := by
        intro v hv
        obtain ⟨w, -, rfl⟩ := List.mem_map.1 hv
        exact w.property
    }
  else refuse (.whereEmpty name)

/-! ### Programs -/

/-- The parts of a program. -/
structure ProgramDraft where
  rules : Part := .list []
  queries : Part := .list []

/-- The rule that a part is. -/
def Rule.ofPart? (given : Part) : Except BuildError Rule :=
  match given with
  | .rule r => .ok r
  | _ => refuse .entryNotRule

/-- The program with the queries of a list added, up to the first that is no query or has the name
of another. -/
def Program.addParts (p : Program) : List Part → Except BuildError Program
  | [] => .ok p
  | .query q :: rest =>
    match p.addQuery? q with
    | some p => addParts p rest
    | none => refuse (.duplicateQuery q.name)
  | _ :: _ => refuse .entryNotQuery

/-- The program of a draft. -/
def ProgramDraft.build (d : ProgramDraft) : Except BuildError Program := do
  let ruleParts ← d.rules.walk
  let rules ← buildAll Rule.ofPart? ruleParts
  let queryParts ← d.queries.walk
  (Program.ofRules rules).addParts queryParts

end DatalogIntake
