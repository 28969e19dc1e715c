import DatalogIntake.Proofs.Program.Rendering

/-!
# Projections in checks and in renderings

The variables that a query asks for are looked at in two places: the check of a program goes through
all rules and then through all queries, and a rendering, on request, looks at the one query that it
is asked for. In both the answer comes down to the list of the variables that are missing
(`Query.check_eq`, `Program.render?_of_mem`), and as no two queries share a name, the query that is
found by a name is the one that was checked.

* `Program.projections_agree`: what a check of the variables says about a rendering, and back. -/

namespace DatalogIntake

/-- A query is checked by the variables that are missing of those it asks for. -/
theorem Query.check_eq (q : Query) :
    q.check = if q.unboundVariables = [] then .ok ()
      else .error (.projection q.name q.unboundVariables) := by
  unfold check breaches
  split_ifs <;> rfl

theorem Query.check_eq_ok {q : Query} : q.check = .ok () ↔ q.unboundVariables = [] := by
  rw [check_eq]
  split_ifs with h <;> simp [h]

theorem Query.check_eq_projection {q : Query} {name : Name} {missing : List String} :
    q.check = .error (.projection name missing) ↔
      ¬q.unboundVariables = [] ∧ q.name = name ∧ q.unboundVariables = missing := by
  rw [check_eq]
  split_ifs with h <;> simp [h]

namespace Program

variable {p : Program}

/-- The breach of a projection comes after all rules, so it is that of the first query that is not
safe. -/
theorem check_eq_projection {name : Name} {missing : List String}
    (h : p.check = .error (.projection name missing)) :
    ∃ i q, FirstFailing (fun q : Query => q.unboundVariables = []) p.queries i q ∧
      q.check = .error (.projection name missing) := by
  have hnone : (p.rules.flatMap Rule.breaches).head? ≠ some (.projection name missing) := by
    intro hrule
    obtain ⟨i, r, -, hr⟩ := head?_flatMap_eq_some.mp hrule
    exact Rule.head?_breaches.mp hr
  rw [check, firstBreach_eq_error, breaches, List.head?_append, Option.or_eq_some_iff] at h
  obtain ⟨i, q, hfirst, hq⟩ := head?_flatMap_eq_some.mp (h.resolve_left hnone).2
  simp only [Query.breaches_eq_nil, ← Query.unboundVariables_eq_nil] at hfirst
  exact ⟨i, q, hfirst, firstBreach_eq_error.mpr hq⟩

theorem check_query (h : p.check = .ok ()) {q : Query} (hq : q ∈ p.queries) : q.check = .ok () := by
  rw [check, firstBreach_eq_ok, breaches, List.append_eq_nil_iff] at h
  exact firstBreach_eq_ok.mpr (List.flatMap_eq_nil_iff.mp h.2 q hq)

/-- A query of a program is refused for its variables, on request, or else all statements come
out. -/
theorem render?_of_mem (h : ∀ t ∈ p.terms, t.IsShort) {q : Query} (hq : q ∈ p.queries)
    (options : CompileOptions) :
    p.render? q.name.text options =
      if options.checkProjection = true ∧ ¬q.unboundVariables = [] then
        .error (.refused (.projectionNotBound q.name q.unboundVariables))
      else .ok (options.separator.intercalate (p.rules.map Rule.source ++ [q.source])) := by
  rw [render?_eq_compile h, compile_of_mem hq]
  split_ifs <;> rfl

/-- **A check and a rendering agree on projections**, for every program whose integers can be
written and every separator. With the variables checked, the rendering for a query is refused for a
projection just when the check of that query fails, and both name the same query and the same
variables; where it is not refused it gives the text of the rendering without that check. So every
query of a program that passes the check is rendered, and where the check fails for a projection,
the first query that asks for variables it does not have is refused. -/
theorem projections_agree (h : ∀ t ∈ p.terms, t.IsShort) (separator : String) :
    let checked := fun name => p.render? name ⟨true, separator⟩
    let unchecked := fun name => p.render? name ⟨false, separator⟩
    (∀ q ∈ p.queries,
      (∀ name missing,
        checked q.name.text = .error (.refused (.projectionNotBound name missing)) ↔
          q.check = .error (.projection name missing)) ∧
      ((∀ name missing,
        checked q.name.text ≠ .error (.refused (.projectionNotBound name missing))) →
          ∃ text, checked q.name.text = .ok text ∧ unchecked q.name.text = .ok text)) ∧
    (p.check = .ok () → ∀ q ∈ p.queries, ∃ text, checked q.name.text = .ok text) ∧
    ∀ name missing, p.check = .error (.projection name missing) →
      ∃ i q, FirstFailing (fun q : Query => q.unboundVariables = []) p.queries i q ∧
        q.name = name ∧ q.unboundVariables = missing ∧
        checked q.name.text = .error (.refused (.projectionNotBound name missing)) := by
  intro checked unchecked
  have hchecked : ∀ q ∈ p.queries, checked q.name.text =
      if q.unboundVariables = [] then
        .ok (separator.intercalate (p.rules.map Rule.source ++ [q.source]))
      else .error (.refused (.projectionNotBound q.name q.unboundVariables)) := by
    intro q hq
    simp only [checked, render?_of_mem h hq, true_and, ite_not]
  have hrefused : ∀ q ∈ p.queries, ∀ name missing,
      checked q.name.text = .error (.refused (.projectionNotBound name missing)) ↔
        q.check = .error (.projection name missing) := by
    intro q hq name missing
    rw [hchecked q hq, Query.check_eq_projection]
    split_ifs with hq' <;> simp [hq']
  refine ⟨fun q hq => ⟨hrefused q hq, fun hnot => ?_⟩, fun hok q hq => ?_,
    fun name missing hfail => ?_⟩
  · have hsafe : q.unboundVariables = [] := by
      by_contra hmissing
      exact hnot _ _ ((hchecked q hq).trans (if_neg hmissing))
    refine ⟨_, (hchecked q hq).trans (if_pos hsafe), ?_⟩
    exact (render?_of_mem h hq _).trans (if_neg (by simp))
  · have hsafe := Query.check_eq_ok.mp (check_query hok hq)
    exact ⟨_, (hchecked q hq).trans (if_pos hsafe)⟩
  · obtain ⟨i, q, hfirst, hq⟩ := check_eq_projection hfail
    obtain ⟨-, hname, hmissing⟩ := Query.check_eq_projection.mp hq
    obtain ⟨before, after, hqueries, -⟩ := id hfirst
    have hmem : q ∈ p.queries := by simp [hqueries]
    exact ⟨i, q, hfirst, hname, hmissing, (hrefused q hmem name missing).mpr hq⟩

/-- A program whose second query asks twice for a variable that its atoms do not have. -/
def askingProgram : Program where
  rules := [⟨⟨"budget", by decide⟩, "", ⟨⟨"budget", by decide⟩, ["?H"]⟩,
    [.atom ⟨⟨"hotel", by decide⟩, [.text "?H", .int 1], false⟩], List.cons_ne_nil _ _⟩]
  queries := [
    ⟨⟨"names", by decide⟩, "", ["H"], [⟨⟨"budget", by decide⟩, [.text "?H"], true⟩],
      List.cons_ne_nil _ _, by decide⟩,
    ⟨⟨"prices", by decide⟩, "", ["?P", "H", "P"], [⟨⟨"budget", by decide⟩, [.text "?H"], false⟩],
      List.cons_ne_nil _ _, by decide⟩]
  names_nodup := by simp

theorem projections_agree_asking :
    (∀ t ∈ askingProgram.terms, t.IsShort) ∧
      askingProgram.check = .error (.projection ⟨"prices", by decide⟩ ["P"]) ∧
      askingProgram.render? "prices" ⟨true, ";"⟩ =
        .error (.refused (.projectionNotBound ⟨"prices", by decide⟩ ["P"])) ∧
      ∃ text, askingProgram.render? "names" ⟨true, ";"⟩ = .ok text ∧
        askingProgram.render? "names" ⟨false, ";"⟩ = .ok text := by
  have hshort : ∀ t ∈ askingProgram.terms, t.IsShort := by decide
  have hcheck : askingProgram.check = .error (.projection ⟨"prices", by decide⟩ ["P"]) := by
    decide
  obtain ⟨hqueries, -, hfail⟩ := projections_agree hshort ";"
  obtain ⟨i, q, -, hname, -, hrefused⟩ := hfail _ _ hcheck
  rw [hname] at hrefused
  have hnames : (askingProgram.queries.head (by decide)).check = .ok () := by decide
  obtain ⟨hiff, hok⟩ := hqueries _ (List.head_mem (by decide))
  refine ⟨hshort, hcheck, hrefused, hok fun name missing hr => ?_⟩
  cases hnames.symm.trans ((hiff name missing).mp hr)

end Program

end DatalogIntake
