import DatalogIntake.Program.Source
import Mathlib.Data.List.Nodup

/-!
# Compiled statements

The compiled text of a program is that of all statements, joined (`Program.compile_of_mem`). No
statement is empty, so the text of the rules is empty only where there are no rules. The query whose
statement comes last is the only one with its name (`Program.filter_name`). -/

namespace DatalogIntake

/-! ### Statements -/

theorem intercalate_eq_empty {separator : String} {l : List String} (h : ∀ s ∈ l, s ≠ "") :
    separator.intercalate l = "" ↔ l = [] := by
  cases l with
  | nil => simp
  | cons s rest =>
    refine iff_of_false (fun he => h s List.mem_cons_self ?_) (List.cons_ne_nil s rest)
    cases rest with
    | nil => simpa using he
    | cons t rest =>
      rw [String.intercalate_cons_cons] at he
      simp_all [String.append_eq_empty_iff]

theorem Atom.source_ne (a : Atom) : a.source ≠ "" := by
  intro h
  have := congrArg String.toList h
  simp [source, applied] at this

theorem Clause.source_ne (c : Clause) : c.source ≠ "" := by
  cases c with
  | atom a => exact a.source_ne
  | comparison c =>
    intro h
    have := congrArg String.toList h
    simp [source, Comparison.source] at this

/-- The statement of a rule is its head, a body that is not empty, and a full stop. -/
theorem Rule.source_eq (r : Rule) :
    ∃ body, body ≠ "" ∧ r.source = r.head.source ++ " :- " ++ body ++ "." := by
  have hclauses : ∀ s ∈ r.body.map Clause.source, s ≠ "" :=
    List.forall_mem_map.mpr fun c _ => c.source_ne
  exact ⟨_, fun h => r.body_ne (List.map_eq_nil_iff.mp ((intercalate_eq_empty hclauses).mp h)), rfl⟩

/-- The statement of a query is a body that is not empty, and a full stop. -/
theorem Query.source_eq (q : Query) : ∃ body, body ≠ "" ∧ q.source = body ++ "." := by
  have hatoms : ∀ s ∈ q.atoms.map Atom.source, s ≠ "" :=
    List.forall_mem_map.mpr fun a _ => a.source_ne
  exact ⟨_, fun h => q.atoms_ne (List.map_eq_nil_iff.mp ((intercalate_eq_empty hatoms).mp h)), rfl⟩

theorem Rule.source_ne (r : Rule) : r.source ≠ "" := by
  obtain ⟨body, -, hsource⟩ := r.source_eq
  intro h
  simp [hsource, String.append_eq_empty_iff] at h

/-- The statement of the query stands alone just where there are no rules. -/
theorem Program.joined_eq (p : Program) (q : Query) (separator : String) :
    let rules := separator.intercalate (p.rules.map Rule.source)
    (if rules.isEmpty then q.source else rules ++ separator ++ q.source) =
      separator.intercalate (p.rules.map Rule.source ++ [q.source]) := by
  intro rules
  have hempty : rules.isEmpty = true ↔ p.rules.map Rule.source = [] := by
    rw [String.isEmpty_iff]
    exact intercalate_eq_empty (List.forall_mem_map.mpr fun r _ => r.source_ne)
  split_ifs with h
  · rw [hempty.mp h, List.nil_append, String.intercalate_singleton]
  · rw [String.intercalate_append_of_ne_nil (fun hr => h (hempty.mpr hr)) (List.cons_ne_nil _ _),
      String.intercalate_singleton]

/-! ### Queries by name -/

theorem Program.query?_eq_none {p : Program} {name : String} :
    p.query? name = none ↔ ∀ q ∈ p.queries, q.name.text ≠ name := by
  simp [query?, List.find?_eq_none]

theorem Program.filter_name {p : Program} {q : Query} (hq : q ∈ p.queries) :
    p.queries.filter (fun r => r.name.text == q.name.text) = [q] := by
  have hnodup := p.names_nodup
  have hsame : p.queries.filter (fun r => r.name.text == q.name.text) =
      p.queries.filter (· == q) := by
    refine List.filter_congr fun r hr => ?_
    rw [Bool.eq_iff_iff, beq_iff_eq, beq_iff_eq]
    exact ⟨List.inj_on_of_nodup_map hnodup hr hq, fun h => h ▸ rfl⟩
  rw [hsame, List.filter_beq, List.count_eq_one_of_mem (List.Nodup.of_map _ hnodup) hq,
    List.replicate_one]

theorem Program.query?_eq_some {p : Program} {name : String} {q : Query} :
    p.query? name = some q ↔ q ∈ p.queries ∧ q.name.text = name := by
  constructor
  · exact fun h => ⟨query?_mem h, query?_name h⟩
  · rintro ⟨hq, rfl⟩
    rw [query?, ← List.head?_filter, filter_name hq, List.head?_cons]

/-! ### Compilation -/

theorem Program.compile_eq_notFound {p : Program} {name : String} {options : CompileOptions} :
    p.compile name options = .error (.queryNotFound name) ↔
      ∀ q ∈ p.queries, q.name.text ≠ name := by
  rw [← query?_eq_none, compile]
  cases p.query? name with
  | none => simp
  | some q =>
    refine iff_of_false ?_ (Option.some_ne_none q)
    dsimp only
    split_ifs <;> simp

/-- A declared query is refused for its variables, on request, or else all statements come out. -/
theorem Program.compile_of_mem {p : Program} {q : Query} (hq : q ∈ p.queries)
    (options : CompileOptions) :
    p.compile q.name.text options =
      if options.checkProjection = true ∧ ¬q.unboundVariables = [] then
        .error (.projectionNotBound q.name q.unboundVariables)
      else .ok (options.separator.intercalate (p.rules.map Rule.source ++ [q.source])) := by
  rw [compile, query?_eq_some.mpr ⟨hq, rfl⟩, ← p.joined_eq q options.separator]
  simp only [Bool.and_eq_true, decide_eq_true_eq, ne_eq, apply_ite Except.ok]

end DatalogIntake
