import DatalogIntake.Program.Basic
import DatalogIntake.Text.Basic
import DatalogIntake.Text.Quoted

/-!
# Safety

A rule is safe when every variable of its head, its comparisons and its negated atoms is bound by
an atom of the body that is not negated, wherever in the body that atom stands. A query is safe
when every variable that it asks for occurs in one of its atoms. The breaches of a program are
listed in order, and the first of them is the answer of a check.
-/

namespace DatalogIntake

/-! ### Missing names -/

/-- The names that are not in `bound`, each once, in the order of their first occurrence. -/
def missingNames (bound : List String) : List String → List String
  | [] => []
  | name :: rest =>
    if name ∈ bound then missingNames bound rest
    else name :: (missingNames bound rest).filter (· ≠ name)

theorem mem_missingNames {bound names : List String} {x : String} :
    x ∈ missingNames bound names ↔ x ∈ names ∧ x ∉ bound := by
  induction names with
  | nil => simp [missingNames]
  | cons name rest ih =>
    by_cases h : name ∈ bound
    · rw [missingNames, if_pos h, ih, List.mem_cons]
      refine ⟨fun hx => ⟨Or.inr hx.1, hx.2⟩, fun hx => ⟨?_, hx.2⟩⟩
      exact hx.1.resolve_left fun e => hx.2 (e ▸ h)
    · by_cases hx : x = name <;> simp [missingNames, h, hx, ih]

theorem missingNames_nodup (bound names : List String) : (missingNames bound names).Nodup := by
  induction names with
  | nil => exact List.nodup_nil
  | cons name rest ih =>
    by_cases h : name ∈ bound
    · rwa [missingNames, if_pos h]
    · rw [missingNames, if_neg h, List.nodup_cons]
      exact ⟨by simp, ih.filter _⟩

/-! ### Rules -/

/-- The variables that a rule binds. -/
def Rule.boundVariables (r : Rule) : List String :=
  r.body.flatMap Clause.boundVariables

/-- The variables of the head that the body does not bind. -/
def Rule.unboundHeadVariables (r : Rule) : List String :=
  missingNames r.boundVariables (r.head.args.map Variable.bare)

/-- The variables that a query asks for and its atoms do not have. -/
def Query.unboundVariables (q : Query) : List String :=
  missingNames (q.atoms.flatMap Atom.variableNames) (q.find.map Variable.bare)

/-- A breach of safety. -/
inductive Breach where
  | head (rule : Name) (missing : List String)
  | body (rule : Name) (name : String) (index : Nat)
  | projection (query : Name) (missing : List String)
deriving DecidableEq

/-- The words for variables that a query asks for in vain. -/
def projectionMessage (query : Name) (missing : List String) : String :=
  s!"Query {query.text} projects unbound variables: " ++ Text.commaList missing

/-- The words for a breach. -/
def Breach.message : Breach → String
  | .head rule missing =>
    s!"Unsafe rule {rule.text}: head variables {Text.bracketed (missing.map Text.quoted)} " ++
      "do not appear in a positive body atom."
  | .body rule name index =>
    s!"Unsafe rule {rule.text}: variable {name} at body {index} " ++
      "is not bound by a positive body atom."
  | .projection query missing => projectionMessage query missing

/-- The breaches of the clauses of a body from the clause number `index` on. -/
def bodyBreaches (rule : Name) (bound : List String) : Nat → List Clause → List Breach
  | _, [] => []
  | index, c :: rest =>
    (c.neededVariables.filter (· ∉ bound)).map (.body rule · index) ++
      bodyBreaches rule bound (index + 1) rest

/-- The breaches of a rule: those of its head are one, those of its body follow. -/
def Rule.breaches (r : Rule) : List Breach :=
  (if r.unboundHeadVariables = [] then [] else [.head r.name r.unboundHeadVariables]) ++
    bodyBreaches r.name r.boundVariables 0 r.body

/-- The breach of a query, if it has one. -/
def Query.breaches (q : Query) : List Breach :=
  if q.unboundVariables = [] then [] else [.projection q.name q.unboundVariables]

/-- The breaches of a program: those of its rules, then those of its queries. -/
def Program.breaches (p : Program) : List Breach :=
  p.rules.flatMap Rule.breaches ++ p.queries.flatMap Query.breaches

/-! ### Checks -/

/-- The first breach of a list is an error. -/
def firstBreach : List Breach → Except Breach Unit
  | [] => .ok ()
  | b :: _ => .error b

/-- Checks a rule. -/
def Rule.check (r : Rule) : Except Breach Unit :=
  firstBreach r.breaches

/-- Checks a query. -/
def Query.check (q : Query) : Except Breach Unit :=
  firstBreach q.breaches

/-- Checks a program. -/
def Program.check (p : Program) : Except Breach Unit :=
  firstBreach p.breaches

end DatalogIntake
