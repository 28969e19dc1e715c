import DatalogIntake.Program.Rendering
import DatalogIntake.Proofs.Program.Loading
import DatalogIntake.Proofs.Program.Safety
import DatalogIntake.Proofs.Program.Statements

/-!
# Rendering loaded programs

Of the steps by which a program is rendered only one can fail: an integer can have too many digits
to be written. The integers of a loaded program have not, so it is compiled or refused for the query
(`Program.render?_eq_compile`), and what is compiled are its statements.

* `Program.render?_of_isLoaded`: what becomes of a loaded program, for every name and all options. -/

namespace DatalogIntake

/-! ### Steps -/

theorem mapM_eq_ok {α β ε : Type} {f : α → Except ε β} {g : α → β} {l : List α}
    (h : ∀ a ∈ l, f a = .ok (g a)) : l.mapM f = .ok (l.map g) := by
  induction l with
  | nil => rfl
  | cons a l ih =>
    obtain ⟨ha, hl⟩ := List.forall_mem_cons.mp h
    rw [List.mapM_cons, ha, ih hl]
    rfl

theorem Term.render?_eq {t : Term} (h : t.IsShort) : t.toJson.render? = .ok t.source := by
  cases t with
  | int n => exact if_pos h
  | text s => rfl
  | double x => rfl
  | bool b => rfl

theorem Atom.render?_eq {a : Atom} (h : ∀ t ∈ a.args, t.IsShort) : a.render? = .ok a.source := by
  have hargs := mapM_eq_ok fun t ht => Term.render?_eq (h t ht)
  simp only [render?, hargs]
  rfl

theorem Comparison.render?_eq {c : Comparison} (h : c.right.IsShort) :
    c.render? = .ok c.source := by
  simp only [render?, Term.render?_eq h]
  rfl

theorem Clause.render?_eq {c : Clause} (h : ∀ t ∈ c.terms, t.IsShort) :
    c.toPart.renderClause? = .ok c.source := by
  cases c with
  | atom a => exact Atom.render?_eq h
  | comparison c => exact Comparison.render?_eq (h c.right List.mem_cons_self)

theorem Rule.render?_eq {r : Rule} (h : ∀ c ∈ r.body, ∀ t ∈ c.terms, t.IsShort) :
    r.render? = .ok r.source := by
  have hbody := mapM_eq_ok fun c hc => Clause.render?_eq (h c hc)
  simp only [render?, hbody]
  rfl

theorem Query.render?_eq {q : Query} (h : ∀ a ∈ q.atoms, ∀ t ∈ a.args, t.IsShort) :
    q.render? = .ok q.source := by
  have hatoms := mapM_eq_ok fun a ha => Atom.render?_eq (h a ha)
  simp only [render?, hatoms]
  rfl

/-- **A program with short integers is compiled or refused, and no step of rendering it fails.** -/
theorem Program.render?_eq_compile {p : Program} (h : ∀ t ∈ p.terms, t.IsShort) (name : String)
    (options : CompileOptions) :
    p.render? name options = (p.compile name options).mapError .refused := by
  obtain ⟨hrules, hqueries⟩ := forall_mem_terms.mp h
  have hstatements := mapM_eq_ok fun r hr => Rule.render?_eq (hrules r hr)
  unfold render? compile
  cases hq : p.query? name with
  | none => rfl
  | some q =>
    have hstatement := Query.render?_eq (hqueries q (query?_mem hq))
    simp only [hstatements, hstatement, bind, Except.bind, pure, Except.pure]
    split_ifs <;> rfl

/-! ### Outcomes -/

/-- **What becomes of a loaded program**, for every name and all options. No step of rendering it
fails, so it is compiled or refused. It is refused for the query just when no query has the name.
Otherwise one query has it, and the program is refused again just when the variables are checked and
the query asks for one that its atoms do not have. In all other cases the statements of all rules in
order and that of the query come out, with the separator between two. A statement has a body that is
not empty, and ends in a full stop. -/
theorem Program.render?_of_isLoaded {p : Program} (h : p.IsLoaded) (name : String)
    (options : CompileOptions) :
    p.render? name options = (p.compile name options).mapError .refused ∧
      (p.compile name options = .error (.queryNotFound name) ↔
        ∀ q ∈ p.queries, q.name.text ≠ name) ∧
      (∀ q ∈ p.queries, q.name.text = name →
        p.queries.filter (fun r => r.name.text == name) = [q] ∧
          (p.compile name options = .error (.projectionNotBound q.name q.unboundVariables) ↔
            options.checkProjection = true ∧
              ∃ v ∈ q.find, ∀ a ∈ q.atoms, ¬a.HasVariable (Variable.bare v)) ∧
          (p.compile name options =
              .ok (options.separator.intercalate (p.rules.map Rule.source ++ [q.source])) ↔
            (options.checkProjection = true →
              ∀ v ∈ q.find, ∃ a ∈ q.atoms, a.HasVariable (Variable.bare v)))) ∧
      (∀ r ∈ p.rules, r.render? = .ok r.source ∧
        ∃ body, body ≠ "" ∧ r.source = r.head.source ++ " :- " ++ body ++ ".") ∧
      ∀ q ∈ p.queries, q.render? = .ok q.source ∧ ∃ body, body ≠ "" ∧ q.source = body ++ "." := by
  obtain ⟨hrules, hqueries⟩ := forall_mem_terms.mp h.isShort_terms
  refine ⟨render?_eq_compile h.isShort_terms name options, compile_eq_notFound, ?_,
    fun r hr => ⟨Rule.render?_eq (hrules r hr), r.source_eq⟩,
    fun q hq => ⟨Query.render?_eq (hqueries q hq), q.source_eq⟩⟩
  rintro q hq rfl
  have hsafe : q.unboundVariables = [] ↔
      ∀ v ∈ q.find, ∃ a ∈ q.atoms, a.HasVariable (Variable.bare v) :=
    Query.unboundVariables_eq_nil
  have hunsafe : (∃ v ∈ q.find, ∀ a ∈ q.atoms, ¬a.HasVariable (Variable.bare v)) ↔
      ¬q.unboundVariables = [] := by
    rw [hsafe]
    push Not
    rfl
  rw [compile_of_mem hq, ← hsafe, hunsafe]
  refine ⟨filter_name hq, ?_, ?_⟩
  · split_ifs with hrefused <;> simp [hrefused]
  · rw [← not_and_not_right]
    split_ifs with hrefused <;> simp [hrefused]

theorem Program.render?_of_isLoaded_unseparated :
    laxProgram.IsLoaded ∧
      laxProgram.render? "find_others" ⟨true, ""⟩ =
        .ok "cheap(hotel) :- hotel_price(hotel, price, true), price < 2.!cheap(hotel)." ∧
      laxProgram.render? "find" ⟨true, ""⟩ = .error (.refused (.queryNotFound "find")) := by
  have hloaded : laxProgram.IsLoaded := isLoaded_iff.mpr (by decide)
  obtain ⟨hsame, -, hquery, -⟩ := render?_of_isLoaded hloaded "find_others" ⟨true, ""⟩
  obtain ⟨hsame', hnone, -⟩ := render?_of_isLoaded hloaded "find" ⟨true, ""⟩
  obtain ⟨-, -, hok⟩ := hquery _ List.mem_cons_self rfl
  have hasked := hok.mpr fun _ =>
    List.forall_mem_singleton.mpr ⟨_, List.mem_cons_self, _, List.mem_cons_self,
      ⟨"hotel".toList, rfl⟩, rfl⟩
  refine ⟨hloaded, ?_, ?_⟩
  · rw [hsame, hasked]
    rfl
  · rw [hsame', hnone.mpr (by decide)]
    rfl

end DatalogIntake
