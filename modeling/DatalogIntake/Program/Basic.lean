import DatalogIntake.Program.Clause

/-!
# Programs

A program is a list of rules and a list of named queries. What every program satisfies is kept in
the types: a rule has a body, a query has atoms and asks for variables with names, and no two
queries of a program share a name.
-/

namespace DatalogIntake

/-- The head of a rule: a predicate and the variables it is defined over. -/
structure Head where
  predicate : Name
  args : List String
deriving DecidableEq

/-- A rule derives its head from the conjunction of its body. -/
structure Rule where
  name : Name
  goal : String
  head : Head
  body : List Clause
  body_ne : body ≠ []
deriving DecidableEq

/-- A query asks for the variables `find` over the conjunction of its atoms. -/
structure Query where
  name : Name
  description : String
  find : List String
  atoms : List Atom
  atoms_ne : atoms ≠ []
  find_ne : ∀ v ∈ find, v ≠ ""
deriving DecidableEq

/-- Rules and queries in the order of declaration. -/
structure Program where
  rules : List Rule
  queries : List Query
  names_nodup : (queries.map fun q => q.name.text).Nodup
deriving DecidableEq

namespace Program

/-- The program of these rules without a query. -/
def ofRules (rules : List Rule) : Program :=
  ⟨rules, [], List.nodup_nil⟩

/-- The query with this name. -/
def query? (p : Program) (name : String) : Option Query :=
  p.queries.find? fun q => q.name.text == name

/-- The program with one more query, if its name is new. -/
def addQuery? (p : Program) (q : Query) : Option Program :=
  if h : q.name.text ∈ p.queries.map (fun q => q.name.text) then none
  else some {
    rules := p.rules
    queries := p.queries ++ [q]
    names_nodup := by
      rw [List.map_append, List.nodup_append]
      refine ⟨p.names_nodup, by simp, fun a ha b hb => ?_⟩
      rw [List.map_cons, List.map_nil, List.mem_singleton] at hb
      exact fun e => h (hb ▸ e ▸ ha)
  }

theorem query?_name {p : Program} {name : String} {q : Query} (h : p.query? name = some q) :
    q.name.text = name := by
  simpa using List.find?_some h

theorem query?_mem {p : Program} {name : String} {q : Query} (h : p.query? name = some q) :
    q ∈ p.queries :=
  List.mem_of_find?_eq_some h

end Program

/-! ### Agreement -/

/-- Whether two lists have the same length and agree item by item. -/
def listsAgree {α : Type} (agree : α → α → Bool) : List α → List α → Bool
  | [], [] => true
  | a :: as, b :: bs => agree a b && listsAgree agree as bs
  | _, _ => false

/-- Atoms agree when they differ in terms of equal value at most. -/
def Atom.agrees (a b : Atom) : Bool :=
  a.predicate == b.predicate && listsAgree Term.agrees a.args b.args && a.isNegated == b.isNegated

/-- Clauses agree when they differ in terms of equal value at most. -/
def Clause.agrees : Clause → Clause → Bool
  | .atom a, .atom b => a.agrees b
  | .comparison c, .comparison d =>
    c.left == d.left && c.operator == d.operator && c.right.agrees d.right
  | _, _ => false

/-- Rules agree when they differ in terms of equal value at most. -/
def Rule.agrees (r s : Rule) : Bool :=
  r.name == s.name && r.goal == s.goal && r.head == s.head && listsAgree Clause.agrees r.body s.body

/-- Queries agree when they differ in terms of equal value at most. -/
def Query.agrees (q r : Query) : Bool :=
  q.name == r.name && q.description == r.description && q.find == r.find &&
    listsAgree Atom.agrees q.atoms r.atoms

/-- Programs agree when they differ in terms of equal value at most. -/
def Program.agrees (p q : Program) : Bool :=
  listsAgree Rule.agrees p.rules q.rules && listsAgree Query.agrees p.queries q.queries

end DatalogIntake
