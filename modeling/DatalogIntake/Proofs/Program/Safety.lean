import DatalogIntake.Program.Safety
import DatalogIntake.Program.Source
import DatalogIntake.Proofs.List.First
import Mathlib.Data.List.Sort

/-!
# Safety in terms of source text

What the check of a program decides, said about its source: a rule binds the texts that the
variables of its unnegated atoms are written as, and everything else that is written as a variable
has to be among them. Where the check fails it gives the first breach: rules come before queries,
the head of a rule before its body, the left side of a comparison before the right one.

* `Program.check_iff`: the check passes for the safe programs, and the error is the first breach. -/

namespace DatalogIntake

/-! ### Names that are missing -/

/-- A list of names that are not bound, each once and in the order of their first occurrence. -/
structure ListsMissing (bound : String → Prop) (names missing : List String) : Prop where
  mem_iff : ∀ x, x ∈ missing ↔ x ∈ names ∧ ¬bound x
  ordered : missing.Pairwise fun x y => names.idxOf x < names.idxOf y

theorem ListsMissing.unique {bound : String → Prop} {names l m : List String}
    (hl : ListsMissing bound names l) (hm : ListsMissing bound names m) : l = m := by
  have hperm : l.Perm m := by
    refine (List.perm_ext_iff_of_nodup ?_ ?_).mpr fun x => (hl.mem_iff x).trans (hm.mem_iff x).symm
    · exact hl.ordered.imp fun h e => absurd h (by rw [e]; exact lt_irrefl _)
    · exact hm.ordered.imp fun h e => absurd h (by rw [e]; exact lt_irrefl _)
  exact hperm.eq_of_pairwise (fun _ _ _ _ h h' => absurd h (lt_asymm h')) hl.ordered hm.ordered

theorem listsMissing_missingNames (bound names : List String) :
    ListsMissing (· ∈ bound) names (missingNames bound names) := by
  refine ⟨fun x => mem_missingNames, ?_⟩
  induction names with
  | nil => exact List.Pairwise.nil
  | cons name rest ih =>
    have hlater : (missingNames bound rest).Pairwise fun x y => x ≠ name → y ≠ name →
        (name :: rest).idxOf x < (name :: rest).idxOf y := by
      refine ih.imp fun {x y} h hx hy => ?_
      rw [List.idxOf_cons_ne _ (Ne.symm hx), List.idxOf_cons_ne _ (Ne.symm hy)]
      exact Nat.succ_lt_succ h
    rw [missingNames]
    split_ifs with h
    · have hne : ∀ x ∈ missingNames bound rest, x ≠ name := fun x hx e =>
        (mem_missingNames.mp hx).2 (e ▸ h)
      exact hlater.imp_of_mem fun hx hy h => h (hne _ hx) (hne _ hy)
    · refine List.pairwise_cons.mpr ⟨fun x hx => ?_, ?_⟩
      · have hne : x ≠ name := by simpa using (List.mem_filter.mp hx).2
        rw [List.idxOf_cons_self, List.idxOf_cons_ne _ (Ne.symm hne)]
        exact Nat.succ_pos _
      · rw [List.pairwise_filter]
        exact hlater.imp fun h hx hy => h (by simpa using hx) (by simpa using hy)

theorem missingNames_eq_nil {bound names : List String} :
    missingNames bound names = [] ↔ ∀ x ∈ names, x ∈ bound := by
  simp [List.eq_nil_iff_forall_not_mem, mem_missingNames]

/-! ### Variables in source text -/

/-- A term that is a variable: a text with the marker first. -/
def Term.IsVariable (t : Term) : Prop := ∃ name, t = .text (String.ofList ('?' :: name))

theorem Variable.isMarked_iff {s : String} :
    Variable.isMarked s = true ↔ ∃ name, s = String.ofList ('?' :: name) := by
  unfold Variable.isMarked
  constructor
  · intro h
    split at h
    · cases h
    · next c name hs =>
      obtain rfl : c = '?' := by simpa [Variable.marker] using h
      exact ⟨name, by rw [← hs, String.ofList_toList]⟩
  · rintro ⟨name, rfl⟩
    simp [Variable.marker]

theorem Term.variableName?_eq_some {t : Term} {x : String} :
    t.variableName? = some x ↔ t.IsVariable ∧ t.source = x := by
  cases t with
  | text s =>
    have hvar : (Term.text s).IsVariable ↔ Variable.isMarked s = true := by
      simp [IsVariable, Variable.isMarked_iff]
    rw [hvar, variableName?, source, textSource]
    split_ifs with h <;> simp [h]
  | int n => simp [variableName?, IsVariable]
  | double x => simp [variableName?, IsVariable]
  | bool b => simp [variableName?, IsVariable]

theorem Term.variableName?_cases (t : Term) :
    (t.variableName? = none ∧ ¬t.IsVariable) ∨
      (t.variableName? = some t.source ∧ t.IsVariable) := by
  cases hname : t.variableName? with
  | none =>
    refine Or.inl ⟨rfl, fun h => ?_⟩
    rw [variableName?_eq_some.mpr ⟨h, rfl⟩] at hname
    cases hname
  | some x =>
    obtain ⟨hvar, rfl⟩ := variableName?_eq_some.mp hname
    exact Or.inr ⟨rfl, hvar⟩

/-- An atom has a variable that is written as a text. -/
def Atom.HasVariable (a : Atom) (x : String) : Prop :=
  ∃ t ∈ a.args, t.IsVariable ∧ t.source = x

theorem Atom.mem_variableNames {a : Atom} {x : String} :
    x ∈ a.variableNames ↔ a.HasVariable x := by
  simp [variableNames, HasVariable, List.mem_filterMap, Term.variableName?_eq_some]

/-! ### Safe programs -/

/-- The texts that a rule binds: what the variables of its atoms that are not negated are written
as. -/
def Rule.Binds (r : Rule) (x : String) : Prop :=
  ∃ a, Clause.atom a ∈ r.body ∧ a.isNegated = false ∧ a.HasVariable x

/-- A clause is safe when what it needs is bound: both sides of a comparison, the right one if it is
a variable, and the variables of an atom that is negated. -/
def Clause.IsSafe (bound : String → Prop) : Clause → Prop
  | .atom a => a.isNegated = true → ∀ t ∈ a.args, t.IsVariable → bound t.source
  | .comparison c =>
    bound (Variable.bare c.left) ∧ (c.right.IsVariable → bound c.right.source)

/-- A rule is safe when it binds its head and what its clauses need. -/
structure Rule.IsSafe (r : Rule) : Prop where
  head : ∀ v ∈ r.head.args, r.Binds (Variable.bare v)
  body : ∀ c ∈ r.body, c.IsSafe r.Binds

/-- A query is safe when its atoms, negated or not, have the variables that it asks for. -/
def Query.IsSafe (q : Query) : Prop :=
  ∀ v ∈ q.find, ∃ a ∈ q.atoms, a.HasVariable (Variable.bare v)

/-- A program is safe when its rules and its queries are. -/
structure Program.IsSafe (p : Program) : Prop where
  rules : ∀ r ∈ p.rules, r.IsSafe
  queries : ∀ q ∈ p.queries, q.IsSafe

/-! ### First breaches -/

/-- The first text that a clause needs and that is not bound: of a comparison the left side before
the right one, of a negated atom the first argument. -/
def Clause.FirstUnbound (bound : String → Prop) : Clause → String → Prop
  | .atom a, x => a.isNegated = true ∧
    ∃ i t, FirstFailing (fun t : Term => t.IsVariable → bound t.source) a.args i t ∧ x = t.source
  | .comparison c, x =>
    (¬bound (Variable.bare c.left) ∧ x = Variable.bare c.left) ∨
      (bound (Variable.bare c.left) ∧ c.right.IsVariable ∧ ¬bound c.right.source ∧
        x = c.right.source)

/-- The first breach of a rule: all that is missing for its head, or else the first text that is
not bound in the first of its clauses that is not safe. -/
def Rule.FirstBreach (r : Rule) : Breach → Prop
  | .head rule missing => rule = r.name ∧ missing ≠ [] ∧
    ListsMissing r.Binds (r.head.args.map Variable.bare) missing
  | .body rule x i => rule = r.name ∧ (∀ v ∈ r.head.args, r.Binds (Variable.bare v)) ∧
    ∃ c, FirstFailing (Clause.IsSafe r.Binds) r.body i c ∧ c.FirstUnbound r.Binds x
  | .projection _ _ => False

/-- The breach of a query: all that is missing of what it asks for. -/
def Query.FirstBreach (q : Query) : Breach → Prop
  | .projection query missing => query = q.name ∧ missing ≠ [] ∧
    ListsMissing (fun x => ∃ a ∈ q.atoms, a.HasVariable x) (q.find.map Variable.bare) missing
  | .head _ _ => False
  | .body _ _ _ => False

/-- The first breach of a program: that of the first rule that is not safe, or where all rules are
safe that of the first such query. -/
def Program.FirstBreach (p : Program) (b : Breach) : Prop :=
  (∃ i r, FirstFailing Rule.IsSafe p.rules i r ∧ r.FirstBreach b) ∨
    (∀ r ∈ p.rules, r.IsSafe) ∧ ∃ i q, FirstFailing Query.IsSafe p.queries i q ∧ q.FirstBreach b

/-! ### Clauses -/

theorem Rule.mem_boundVariables {r : Rule} {x : String} : x ∈ r.boundVariables ↔ r.Binds x := by
  rw [boundVariables, List.mem_flatMap]
  constructor
  · rintro ⟨c, hc, hx⟩
    cases c with
    | atom a =>
      cases hn : a.isNegated with
      | true => simp [Clause.boundVariables, hn] at hx
      | false =>
        rw [Clause.boundVariables, if_neg (by simp [hn])] at hx
        exact ⟨a, hc, hn, Atom.mem_variableNames.mp hx⟩
    | comparison c => simp [Clause.boundVariables] at hx
  · rintro ⟨a, ha, hn, hx⟩
    refine ⟨.atom a, ha, ?_⟩
    rw [Clause.boundVariables, if_neg (by simp [hn])]
    exact Atom.mem_variableNames.mpr hx

/-- The first variable of several terms that is not bound. -/
theorem head?_unbound {bound : List String} {args : List Term} {x : String} :
    ((args.filterMap Term.variableName?).filter (· ∉ bound)).head? = some x ↔
      ∃ i t, FirstFailing (fun t : Term => t.IsVariable → t.source ∈ bound) args i t ∧
        x = t.source := by
  induction args with
  | nil => simp [not_firstFailing_nil]
  | cons t args ih =>
    rw [exists_firstFailing_cons, ← ih]
    rcases t.variableName?_cases with ⟨hname, hvar⟩ | ⟨hname, hvar⟩
    · simp [hname, hvar]
    · by_cases hb : t.source ∈ bound
      · simp [hname, hvar, hb]
      · simp [hname, hvar, hb, eq_comm]

theorem Clause.unbound_eq_nil {bound : List String} {c : Clause} :
    c.neededVariables.filter (· ∉ bound) = [] ↔ c.IsSafe (· ∈ bound) := by
  cases c with
  | atom a =>
    cases hn : a.isNegated with
    | true =>
      simp only [neededVariables, IsSafe, hn, if_true, forall_const, List.filter_eq_nil_iff,
        decide_not, Bool.not_eq_true', decide_eq_false_iff_not, not_not, Atom.mem_variableNames]
      constructor
      · exact fun h t ht hv => h _ ⟨t, ht, hv, rfl⟩
      · rintro h _ ⟨t, ht, hv, rfl⟩
        exact h t ht hv
    | false => simp [neededVariables, IsSafe, hn]
  | comparison c => simp [neededVariables, IsSafe, Term.variableName?_eq_some]

theorem Clause.head?_unbound {bound : List String} {c : Clause} {x : String} :
    (c.neededVariables.filter (· ∉ bound)).head? = some x ↔ c.FirstUnbound (· ∈ bound) x := by
  cases c with
  | atom a =>
    cases hn : a.isNegated with
    | true =>
      simp only [neededVariables, FirstUnbound, hn, if_true, true_and, Atom.variableNames]
      exact DatalogIntake.head?_unbound
    | false => simp [neededVariables, FirstUnbound, hn]
  | comparison c =>
    have hright : (c.right.variableName?.toList.filter (· ∉ bound)).head? = some x ↔
        c.right.IsVariable ∧ c.right.source ∉ bound ∧ x = c.right.source := by
      rcases c.right.variableName?_cases with ⟨hname, hvar⟩ | ⟨hname, hvar⟩
      · simp [hname, hvar]
      · by_cases hb : c.right.source ∈ bound
        · simp [hname, hb]
        · simp [hname, hvar, hb, eq_comm]
    rw [neededVariables, FirstUnbound, List.filter_cons]
    by_cases hb : Variable.bare c.left ∈ bound
    · simpa [hb] using hright
    · simp [hb, eq_comm]

/-! ### Rules, queries and programs -/

theorem Rule.binds_eq (r : Rule) : (· ∈ r.boundVariables) = r.Binds :=
  funext fun _ => propext mem_boundVariables

theorem bodyBreaches_eq_nil {rule : Name} {bound : List String} {i : Nat} {body : List Clause} :
    bodyBreaches rule bound i body = [] ↔ ∀ c ∈ body, c.IsSafe (· ∈ bound) := by
  induction body generalizing i with
  | nil => simp [bodyBreaches]
  | cons c body ih =>
    rw [bodyBreaches, List.append_eq_nil_iff, List.map_eq_nil_iff, Clause.unbound_eq_nil, ih,
      List.forall_mem_cons]

/-- The first breach of a body, its clauses counted from a number on. -/
theorem head?_bodyBreaches {rule : Name} {bound : List String} {k : Nat} {body : List Clause}
    {b : Breach} : (bodyBreaches rule bound k body).head? = some b ↔
      ∃ i c, FirstFailing (Clause.IsSafe (· ∈ bound)) body i c ∧
        ∃ x, c.FirstUnbound (· ∈ bound) x ∧ b = .body rule x (k + i) := by
  induction body generalizing k with
  | nil => simp [bodyBreaches, not_firstFailing_nil]
  | cons c body ih =>
    have htail := ih (k := k + 1)
    simp only [Nat.add_assoc, Nat.add_comm 1] at htail
    rw [bodyBreaches, exists_firstFailing_cons, ← htail, ← Clause.unbound_eq_nil]
    simp only [← Clause.head?_unbound]
    cases c.neededVariables.filter (· ∉ bound) <;> simp [eq_comm]

theorem listsMissing_iff {bound : List String} {names missing : List String} :
    ListsMissing (· ∈ bound) names missing ↔ missing = missingNames bound names :=
  ⟨fun h => h.unique (listsMissing_missingNames bound names),
    fun h => h ▸ listsMissing_missingNames bound names⟩

theorem Rule.unboundHeadVariables_eq_nil {r : Rule} :
    r.unboundHeadVariables = [] ↔ ∀ v ∈ r.head.args, r.Binds (Variable.bare v) := by
  rw [unboundHeadVariables, missingNames_eq_nil, List.forall_mem_map]
  simp only [mem_boundVariables]

theorem Rule.breaches_eq_nil {r : Rule} : r.breaches = [] ↔ r.IsSafe := by
  have hhead := r.unboundHeadVariables_eq_nil
  rw [breaches, List.append_eq_nil_iff, bodyBreaches_eq_nil, r.binds_eq]
  constructor
  · rintro ⟨h, hbody⟩
    exact ⟨hhead.mp (by simpa using h), hbody⟩
  · rintro ⟨h, hbody⟩
    exact ⟨if_pos (hhead.mpr h), hbody⟩

/-- **The first breach of a rule.** -/
theorem Rule.head?_breaches {r : Rule} {b : Breach} :
    r.breaches.head? = some b ↔ r.FirstBreach b := by
  have hhead := r.unboundHeadVariables_eq_nil
  have hmissing : ∀ missing, ListsMissing r.Binds (r.head.args.map Variable.bare) missing ↔
      missing = r.unboundHeadVariables := by
    rw [← r.binds_eq]
    exact fun missing => listsMissing_iff
  rw [breaches]
  by_cases hbound : r.unboundHeadVariables = []
  · have hsafe := hhead.mp hbound
    rw [if_pos hbound, List.nil_append, head?_bodyBreaches, r.binds_eq]
    cases b with
    | head rule missing => simp [FirstBreach, hmissing, hbound]
    | body rule x i =>
      simp only [FirstBreach, Nat.zero_add]
      constructor
      · rintro ⟨j, c, hc, y, hy, hb⟩
        obtain ⟨rfl, rfl, rfl⟩ := Breach.body.inj hb
        exact ⟨rfl, hsafe, c, hc, hy⟩
      · rintro ⟨rfl, -, c, hc, hy⟩
        exact ⟨i, c, hc, x, hy, rfl⟩
    | projection query missing => simp [FirstBreach]
  · rw [if_neg hbound, List.singleton_append, List.head?_cons, Option.some.injEq]
    cases b with
    | head rule missing =>
      simp only [FirstBreach, hmissing, Breach.head.injEq]
      constructor
      · rintro ⟨rfl, rfl⟩
        exact ⟨rfl, hbound, rfl⟩
      · rintro ⟨rfl, -, rfl⟩
        exact ⟨rfl, rfl⟩
    | body rule x i => exact iff_of_false (by simp) fun h => hbound (hhead.mpr h.2.1)
    | projection query missing => simp [FirstBreach]

theorem Query.unboundVariables_eq_nil {q : Query} : q.unboundVariables = [] ↔ q.IsSafe := by
  rw [unboundVariables, missingNames_eq_nil, List.forall_mem_map]
  simp only [List.mem_flatMap, Atom.mem_variableNames, IsSafe]

theorem Query.breaches_eq_nil {q : Query} : q.breaches = [] ↔ q.IsSafe := by
  rw [breaches, ← unboundVariables_eq_nil]
  split_ifs with h <;> simp [h]

/-- **The breach of a query.** -/
theorem Query.head?_breaches {q : Query} {b : Breach} :
    q.breaches.head? = some b ↔ q.FirstBreach b := by
  have hhas : (· ∈ q.atoms.flatMap Atom.variableNames) = fun x => ∃ a ∈ q.atoms, a.HasVariable x :=
    funext fun x => propext (by simp only [List.mem_flatMap, Atom.mem_variableNames])
  have hmissing : ∀ missing, ListsMissing (fun x => ∃ a ∈ q.atoms, a.HasVariable x)
      (q.find.map Variable.bare) missing ↔ missing = q.unboundVariables := by
    rw [← hhas]
    exact fun missing => listsMissing_iff
  rw [breaches]
  cases b with
  | head rule missing => split_ifs <;> simp [FirstBreach]
  | body rule x i => split_ifs <;> simp [FirstBreach]
  | projection query missing =>
    simp only [FirstBreach, hmissing]
    split_ifs with h
    · simp [h]
    · simp only [List.head?_cons, Option.some.injEq, Breach.projection.injEq]
      constructor
      · rintro ⟨rfl, rfl⟩
        exact ⟨rfl, h, rfl⟩
      · rintro ⟨rfl, -, rfl⟩
        exact ⟨rfl, rfl⟩

/-! ### Checks -/

theorem firstBreach_eq_ok {l : List Breach} : firstBreach l = .ok () ↔ l = [] := by
  cases l <;> simp [firstBreach]

theorem firstBreach_eq_error {l : List Breach} {b : Breach} :
    firstBreach l = .error b ↔ l.head? = some b := by
  cases l <;> simp [firstBreach]

/-- **The check decides safety.** It passes for the safe programs and no others: in every rule the
head, the comparisons and the negated atoms are written with variables that atoms of the body bind,
and every query asks for variables of its atoms. For any other program the error is the first
breach. -/
theorem Program.check_iff (p : Program) :
    (p.check = .ok () ↔ p.IsSafe) ∧ ∀ b, p.check = .error b ↔ p.FirstBreach b := by
  have hrules : p.rules.flatMap Rule.breaches = [] ↔ ∀ r ∈ p.rules, r.IsSafe := by
    simp only [List.flatMap_eq_nil_iff, Rule.breaches_eq_nil]
  have hqueries : p.queries.flatMap Query.breaches = [] ↔ ∀ q ∈ p.queries, q.IsSafe := by
    simp only [List.flatMap_eq_nil_iff, Query.breaches_eq_nil]
  refine ⟨?_, fun b => ?_⟩
  · rw [check, firstBreach_eq_ok, breaches, List.append_eq_nil_iff, hrules, hqueries]
    exact ⟨fun h => ⟨h.1, h.2⟩, fun h => ⟨h.1, h.2⟩⟩
  · rw [check, firstBreach_eq_error, breaches, List.head?_append, FirstBreach, ← hrules]
    have hfirst := head?_flatMap_eq_some (f := Rule.breaches) (l := p.rules) (b := b)
    have hfirst' := head?_flatMap_eq_some (f := Query.breaches) (l := p.queries) (b := b)
    simp only [Rule.breaches_eq_nil, Rule.head?_breaches] at hfirst
    simp only [Query.breaches_eq_nil, Query.head?_breaches] at hfirst'
    rw [← hfirst, ← hfirst']
    cases p.rules.flatMap Rule.breaches <;> simp

end DatalogIntake
