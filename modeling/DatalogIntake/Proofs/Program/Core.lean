import DatalogIntake.Proofs.Program.Statements

/-!
# The core of a compilation

What the compiled text of a query depends on: the rules without their names and goals, with the
markers off where only variables can stand, and the atoms of the query. The text is that of the core
(`Program.compile_of_query?`): each rule, each followed by an empty line, and the query. -/

namespace DatalogIntake

/-! ### Cores -/

/-- A clause with the marker off the variable of a comparison. -/
inductive ClauseCore where
  | atom (a : Atom)
  | comparison (left : String) (operator : Operator) (right : Term)
deriving DecidableEq

/-- A rule without its name and its goal, with the markers off its head. -/
structure RuleCore where
  predicate : Name
  args : List String
  body : List ClauseCore
deriving DecidableEq

/-- The rules of a program and the atoms of one query. -/
structure ProgramCore where
  rules : List RuleCore
  atoms : List Atom
deriving DecidableEq

/-- The core of a clause. -/
def Clause.core : Clause → ClauseCore
  | .atom a => .atom a
  | .comparison c => .comparison (Variable.bare c.left) c.operator c.right

/-- The core of a rule. -/
def Rule.core (r : Rule) : RuleCore :=
  ⟨r.head.predicate, r.head.args.map Variable.bare, r.body.map Clause.core⟩

/-- The core of a program and one of its queries. -/
def Program.core (p : Program) (q : Query) : ProgramCore :=
  ⟨p.rules.map Rule.core, q.atoms⟩

/-! ### Texts -/

theorem intercalate_cons {α : Type} (sep a : List α) (rest : List (List α)) :
    sep.intercalate (a :: rest) = a ++ rest.flatMap (sep ++ ·) := by
  induction rest generalizing a with
  | nil => simp [List.intercalate]
  | cons b rest ih =>
    have hcons : sep.intercalate (a :: b :: rest) = a ++ sep ++ sep.intercalate (b :: rest) := by
      simp [List.intercalate]
    rw [hcons, ih b, List.flatMap_cons]
    simp

theorem intercalate_concat {α : Type} (sep last : List α) (l : List (List α)) :
    sep.intercalate (l ++ [last]) = l.flatMap (· ++ sep) ++ last := by
  induction l with
  | nil => simp [List.intercalate]
  | cons a l ih =>
    cases hrest : l ++ [last] with
    | nil => simp at hrest
    | cons b rest =>
      have hcons : sep.intercalate (a :: b :: rest) = a ++ sep ++ sep.intercalate (b :: rest) := by
        simp [List.intercalate]
      rw [List.cons_append, hrest, hcons, ← hrest, ih, List.flatMap_cons]
      simp only [List.append_assoc]

/-- Texts with a comma and a blank between two. -/
def listed (items : List (List Char)) : List Char :=
  [',', ' '].intercalate items

/-- The text of a term. -/
def Term.chars (t : Term) : List Char :=
  t.source.toList

/-- The text of an atom. -/
def Atom.chars (a : Atom) : List Char :=
  (if a.isNegated then ['!'] else []) ++
    (a.predicate.text.toList ++ '(' :: (listed (a.args.map Term.chars) ++ [')']))

/-- The text of a clause. -/
def ClauseCore.chars : ClauseCore → List Char
  | .atom a => a.chars
  | .comparison left operator right =>
    left.toList ++ ' ' :: (operator.symbol.toList ++ ' ' :: right.chars)

/-- The text of a rule. -/
def RuleCore.chars (r : RuleCore) : List Char :=
  r.predicate.text.toList ++ '(' :: (listed (r.args.map String.toList) ++
    ')' :: ' ' :: ':' :: '-' :: ' ' :: (listed (r.body.map ClauseCore.chars) ++ ['.']))

/-- The text of a program and a query: the rules, an empty line after each, and the query. -/
def ProgramCore.chars (c : ProgramCore) : List Char :=
  c.rules.flatMap (fun r => r.chars ++ ['\n', '\n']) ++ (listed (c.atoms.map Atom.chars) ++ ['.'])

theorem toList_commaList (items : List String) :
    (Text.commaList items).toList = listed (items.map String.toList) := by
  simp [Text.commaList, listed, String.toList_intercalate]

theorem Atom.toList_source (a : Atom) : a.source.toList = a.chars := by
  unfold source applied chars
  cases a.isNegated <;> simp [toList_commaList, Function.comp_def] <;> rfl

theorem Clause.toList_source (c : Clause) : c.source.toList = c.core.chars := by
  cases c with
  | atom a => exact a.toList_source
  | comparison c => simp [source, Comparison.source, core, ClauseCore.chars, Term.chars]

theorem Rule.toList_source (r : Rule) : r.source.toList = r.core.chars := by
  simp [source, Head.source, applied, core, RuleCore.chars, toList_commaList, Function.comp_def,
    Clause.toList_source]

theorem Query.toList_source (q : Query) :
    q.source.toList = listed (q.atoms.map Atom.chars) ++ ['.'] := by
  simp [source, toList_commaList, Function.comp_def, Atom.toList_source]

/-! ### The compiled text -/

/-- **The compiled text of a declared query is the text of its core.** -/
theorem Program.compile_of_query? {p : Program} {name : String} {q : Query}
    (h : p.query? name = some q) :
    p.compile name {} = .ok (String.ofList (p.core q).chars) := by
  obtain ⟨hq, rfl⟩ := query?_eq_some.mp h
  have htext : ("\n\n".intercalate (p.rules.map Rule.source ++ [q.source])) =
      String.ofList (p.core q).chars := by
    rw [← String.toList_inj, String.toList_intercalate, String.toList_ofList, List.map_append,
      List.map_singleton, intercalate_concat, q.toList_source, ProgramCore.chars, Program.core]
    simp [List.flatMap_map, Rule.toList_source]
  rw [compile_of_mem hq, htext]
  exact if_neg fun hchecked => Bool.false_ne_true hchecked.1

end DatalogIntake
