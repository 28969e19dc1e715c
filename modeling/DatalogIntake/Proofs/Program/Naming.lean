import DatalogIntake.Proofs.Program.Loading
import DatalogIntake.Proofs.Service.RoundTrip

/-!
# Names in programs

The test for names lets a line feed through behind an identifier (`Name.isName_iff`). Nothing after
it takes the line feed away: wherever a program comes from, and wherever in the program a name
stands, the names are the identifiers, and the identifiers with a line feed behind them.

* `Program.exists_name_iff`: what can be a name, for every origin of programs and every place. -/

namespace DatalogIntake

/-! ### The test for names -/

namespace Name

theorem isTail_cons {c : Char} {rest : List Char} : isTail (c :: rest) = true ↔
    c = '\n' ∧ rest = [] ∨ isFollow c = true ∧ isTail rest = true := by
  by_cases hlast : c = '\n' ∧ rest = []
  · obtain ⟨rfl, rfl⟩ := hlast
    simp [isTail]
  · rw [isTail, Bool.and_eq_true]
    · simp [hlast]
    · rintro rfl
      exact fun h => hlast ⟨rfl, h⟩

/-- What follows in a name are following characters, and at the end one line feed may stand. -/
theorem isTail_iff {cs : List Char} : isTail cs = true ↔
    cs.all isFollow = true ∨ ∃ ds, ds.all isFollow = true ∧ cs = ds ++ ['\n'] := by
  induction cs with
  | nil => simp [isTail]
  | cons c rest ih =>
    rw [isTail_cons, ih]
    constructor
    · rintro (⟨rfl, rfl⟩ | ⟨hc, hall | ⟨ds, hds, rfl⟩⟩)
      · exact Or.inr ⟨[], rfl, rfl⟩
      · exact Or.inl (by simp [hc, hall])
      · exact Or.inr ⟨c :: ds, by simp [hc, hds], rfl⟩
    · rintro (hall | ⟨_ | ⟨d, ds⟩, hds, hcs⟩)
      · rw [List.all_cons, Bool.and_eq_true] at hall
        exact Or.inr ⟨hall.1, Or.inl hall.2⟩
      · exact Or.inl (List.cons.inj hcs)
      · obtain ⟨rfl, rfl⟩ := List.cons.inj hcs
        rw [List.all_cons, Bool.and_eq_true] at hds
        exact Or.inr ⟨hds.1, Or.inr ⟨ds, hds.2, rfl⟩⟩

/-- A name is an identifier, or an identifier with one line feed behind it. -/
theorem isName_iff {cs : List Char} : isName cs = true ↔
    isIdentifier cs = true ∨ ∃ ds, isIdentifier ds = true ∧ cs = ds ++ ['\n'] := by
  cases cs with
  | nil => simp [isName, isIdentifier]
  | cons c rest =>
    simp only [isName, Bool.and_eq_true, isTail_iff]
    constructor
    · rintro ⟨hc, hall | ⟨ds, hds, rfl⟩⟩
      · exact Or.inl (by simp [isIdentifier, hc, hall])
      · exact Or.inr ⟨c :: ds, by simp [isIdentifier, hc, hds], rfl⟩
    · rintro (h | ⟨_ | ⟨d, ds⟩, hds, hcs⟩)
      · obtain ⟨hc, hall⟩ := Bool.and_eq_true_iff.mp h
        exact ⟨hc, Or.inl hall⟩
      · cases hds
      · obtain ⟨rfl, rfl⟩ := List.cons.inj hcs
        obtain ⟨hd, hall⟩ := Bool.and_eq_true_iff.mp hds
        exact ⟨hd, Or.inr ⟨ds, hall, rfl⟩⟩

theorem exists_text_iff {s : String} : (∃ n : Name, n.text = s) ↔
    isIdentifier s.toList = true ∨ ∃ t : String, isIdentifier t.toList = true ∧ s = t ++ "\n" := by
  have hname : (∃ n : Name, n.text = s) ↔ isName s.toList = true :=
    ⟨fun ⟨n, hn⟩ => hn ▸ n.isName_text, fun h => ⟨⟨s, h⟩, rfl⟩⟩
  rw [hname, isName_iff]
  refine or_congr Iff.rfl ⟨?_, ?_⟩
  · rintro ⟨ds, hds, hs⟩
    refine ⟨String.ofList ds, by rwa [String.toList_ofList], String.toList_inj.mp ?_⟩
    rw [hs, String.toList_append, String.toList_ofList]
    rfl
  · rintro ⟨t, ht, rfl⟩
    exact ⟨t.toList, ht, String.toList_append⟩

end Name

/-! ### Programs and where they come from -/

/-- A program whose parts all come out of their builders. -/
structure Program.IsBuilt (p : Program) : Prop where
  program : ∃ d : ProgramDraft, d.build = .ok p
  rules : ∀ r ∈ p.rules, ∃ d : RuleDraft, d.build = .ok r
  heads : ∀ r ∈ p.rules, ∃ d : HeadDraft, d.build = .ok r.head
  bodyAtoms : ∀ r ∈ p.rules, ∀ a, Clause.atom a ∈ r.body → ∃ d : AtomDraft, d.build = .ok a
  comparisons : ∀ r ∈ p.rules, ∀ c, Clause.comparison c ∈ r.body →
    ∃ d : ComparisonDraft, d.build = .ok c
  queries : ∀ q ∈ p.queries, ∃ d : QueryDraft, d.build = .ok q
  queryAtoms : ∀ q ∈ p.queries, ∀ a ∈ q.atoms, ∃ d : AtomDraft, d.build = .ok a

/-- Where programs come from: the builders, the value of a document, its text, and a response. -/
inductive ProgramOrigin where
  | builders
  | document
  | documentText
  | response

/-- A program that comes from an origin. -/
def Program.ComesFrom (p : Program) : ProgramOrigin → Prop
  | .builders => p.IsBuilt
  | .document => ∃ v, Program.ofJson? v = .ok p
  | .documentText => ∃ room text, Program.ofText? room text = .ok p
  | .response => ∃ room text, programOfResponse? room text = .ok p

theorem Atom.exists_draft (a : Atom) : ∃ d : AtomDraft, d.build = .ok a :=
  ⟨⟨.json (.str a.predicate.text), .list (a.args.map fun t => .json t.toJson),
    .json (.bool a.isNegated)⟩, AtomDraft.build_eq_ok.mpr ⟨rfl, rfl, rfl⟩⟩

theorem Comparison.exists_draft (c : Comparison) : ∃ d : ComparisonDraft, d.build = .ok c :=
  ⟨⟨.json (.str c.left), .json (.str c.operator.symbol), .json c.right.toJson⟩,
    ComparisonDraft.build_eq_ok.mpr ⟨rfl, rfl, rfl⟩⟩

theorem Head.exists_draft (h : Head) : ∃ d : HeadDraft, d.build = .ok h :=
  ⟨⟨.json (.str h.predicate.text), .list (h.args.map fun s => .json (.str s))⟩,
    HeadDraft.build_eq_ok.mpr ⟨rfl, rfl⟩⟩

theorem Rule.exists_draft (r : Rule) : ∃ d : RuleDraft, d.build = .ok r :=
  ⟨⟨.json (.str r.name.text), .head r.head, .list (r.body.map Clause.toPart), .json (.str r.goal)⟩,
    RuleDraft.build_eq_ok.mpr ⟨rfl, rfl, rfl, rfl⟩⟩

theorem Query.exists_draft (q : Query) : ∃ d : QueryDraft, d.build = .ok q :=
  ⟨⟨.json (.str q.name.text), .list (q.atoms.map .atom),
    .list (q.find.map fun s => .json (.str s)), .json (.str q.description)⟩,
    QueryDraft.build_eq_ok.mpr ⟨rfl, rfl, rfl, rfl⟩⟩

theorem Program.isBuilt (p : Program) : p.IsBuilt where
  program := ⟨⟨.list (p.rules.map .rule), .list (p.queries.map .query)⟩,
    ProgramDraft.build_eq_ok.mpr ⟨rfl, rfl⟩⟩
  rules r _ := r.exists_draft
  heads r _ := r.head.exists_draft
  bodyAtoms _ _ a _ := a.exists_draft
  comparisons _ _ c _ := c.exists_draft
  queries q _ := q.exists_draft
  queryAtoms _ _ a _ := a.exists_draft

/-- A program with short integers comes from everywhere. -/
theorem Program.comesFrom {p : Program} (h : ∀ t ∈ p.terms, t.IsShort) (origin : ProgramOrigin) :
    p.ComesFrom origin := by
  cases origin with
  | builders => exact p.isBuilt
  | document => exact ⟨_, ofJson?_toJson p⟩
  | documentText => exact ⟨documentDepth, exists_text h⟩
  | response => exact ⟨documentDepth, _, programOfResponse?_toText le_rfl h .line⟩

/-! ### Names and where they stand -/

/-- Where in a program a name stands. Atoms are told apart by whether they are negated. -/
inductive NamePlace where
  | rule
  | head
  | body (isNegated : Bool)
  | query
  | atom (isNegated : Bool)

/-- A text stands as a name in a place of a program. -/
def Program.HasName (p : Program) (s : String) : NamePlace → Prop
  | .rule => ∃ r ∈ p.rules, r.name.text = s
  | .head => ∃ r ∈ p.rules, r.head.predicate.text = s
  | .body isNegated => ∃ r ∈ p.rules, ∃ a, Clause.atom a ∈ r.body ∧ a.isNegated = isNegated ∧
    a.predicate.text = s
  | .query => ∃ q ∈ p.queries, q.name.text = s
  | .atom isNegated => ∃ q ∈ p.queries, ∃ a ∈ q.atoms, a.isNegated = isNegated ∧
    a.predicate.text = s

theorem Program.HasName.exists_name {p : Program} {s : String} {place : NamePlace}
    (h : p.HasName s place) : ∃ n : Name, n.text = s := by
  cases place with
  | rule => obtain ⟨r, -, hname⟩ := h; exact ⟨_, hname⟩
  | head => obtain ⟨r, -, hname⟩ := h; exact ⟨_, hname⟩
  | body isNegated => obtain ⟨r, -, a, -, -, hname⟩ := h; exact ⟨_, hname⟩
  | query => obtain ⟨q, -, hname⟩ := h; exact ⟨_, hname⟩
  | atom isNegated => obtain ⟨q, -, a, -, -, hname⟩ := h; exact ⟨_, hname⟩

/-- A program with one name in all places. -/
def Program.ofName (n : Name) : Program where
  rules := [⟨n, "", ⟨n, []⟩, [.atom ⟨n, [], false⟩, .atom ⟨n, [], true⟩], List.cons_ne_nil _ _⟩]
  queries := [⟨n, "", [], [⟨n, [], false⟩, ⟨n, [], true⟩], List.cons_ne_nil _ _,
    List.forall_mem_nil _⟩]
  names_nodup := List.nodup_singleton _

theorem Program.hasName_ofName (n : Name) (place : NamePlace) :
    (ofName n).HasName n.text place := by
  cases place with
  | body isNegated => cases isNegated <;> simp [HasName, ofName]
  | atom isNegated => cases isNegated <;> simp [HasName, ofName]
  | _ => simp [HasName, ofName]

theorem Program.terms_ofName (n : Name) : (ofName n).terms = [] := by
  simp [ofName, terms, Clause.terms]

/-- **What can be a name.** Wherever a program comes from, and in every place where a name can stand,
the names are the identifiers, and the identifiers with one line feed behind them. -/
theorem Program.exists_name_iff (origin : ProgramOrigin) (place : NamePlace) (s : String) :
    (∃ p : Program, p.ComesFrom origin ∧ p.HasName s place) ↔
      Name.isIdentifier s.toList = true ∨
        ∃ t : String, Name.isIdentifier t.toList = true ∧ s = t ++ "\n" := by
  rw [← Name.exists_text_iff]
  constructor
  · rintro ⟨p, -, h⟩
    exact h.exists_name
  · rintro ⟨n, rfl⟩
    have hshort : ∀ t ∈ (ofName n).terms, t.IsShort := by simp [terms_ofName]
    exact ⟨ofName n, comesFrom hshort origin, hasName_ofName n place⟩

/-- **A name need not be an identifier.** The text of a document whose query is named by an
identifier and a line feed is read as a program with that query. -/
theorem Program.name_lineFeed :
    let text := "\x7b\"rules\":[],\"queries\":[\x7b\"name\":\"q\\n\"," ++
      "\"where\":[\x7b\"predicate\":\"p\",\"args\":[]\x7d]\x7d]\x7d"
    Name.isIdentifier "q\n".toList = false ∧
      (Program.ofText? 990 text).toOption.map (fun p => p.queries.map fun q => q.name.text) =
        some ["q\n"] := by
  intro text
  exact ⟨by decide, by decide +kernel⟩

end DatalogIntake
