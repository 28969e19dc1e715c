import DatalogIntake.Proofs.Document.NormalForm
import DatalogIntake.Proofs.Shape.Fitting
import DatalogIntake.Service.Program

/-!
# What answers say

An answer says a program (`Answer.SaysProgram`) if its members are those of the program: names,
texts and variables as strings, terms as the values of their kind, rules, queries, clauses and
arguments one by one in their order, and for a negation a value that stands for it. An answer that
conforms is the one program that it says, or none: the parts that are handed to the builders are
those of a program just when the check of the answer ends with them
(`programOfAnswer?_eq_ok`, `check_programShape`). -/

namespace DatalogIntake

open Json

/-! ### Answers and programs -/

namespace Answer

/-- An answer says a list: its items say those of the list, one by one. -/
def SaysList {α : Type} (R : α → Json → Prop) (as : List α) : Json → Prop
  | .arr items => List.Forall₂ (fun v a => R a v) items as
  | _ => False

/-- The members of an atom beside its type. -/
@[mk_iff]
structure AtomMembersSay (a : Atom) (members : List (String × Json)) : Prop where
  predicate : Has "predicate" (· = .str a.predicate.text) members
  args : Has "args" (· = .arr (a.args.map Term.toJson)) members
  isNegated : (fieldOr "isNegated" (.bool false) members).StandsFor a.isNegated

/-- The members of a comparison beside its type. -/
@[mk_iff]
structure ComparisonMembersSay (c : Comparison) (members : List (String × Json)) : Prop where
  left : Has "variable" (· = .str c.left) members
  operator : Has "operator" (· = .str c.operator.symbol) members
  right : Has "value" (· = c.right.toJson) members

/-- An answer says an atom, whose type may be left out. -/
def SaysAtom (a : Atom) : Json → Prop :=
  IsObjectWith fun members => MayHave "type" (· = .str "atom") members ∧ AtomMembersSay a members

/-- An answer says a clause, by its type. -/
def SaysClause : Clause → Json → Prop
  | .atom a => IsObjectWith fun members =>
    Has "type" (· = .str "atom") members ∧ AtomMembersSay a members
  | .comparison c => IsObjectWith fun members =>
    Has "type" (· = .str "comparison") members ∧ ComparisonMembersSay c members

/-- The members of a head. -/
@[mk_iff]
structure HeadMembersSay (h : Head) (members : List (String × Json)) : Prop where
  predicate : Has "predicate" (· = .str h.predicate.text) members
  args : Has "headArguments" (· = .arr (h.args.map .str)) members

/-- An answer says a head. -/
def SaysHead (h : Head) : Json → Prop := IsObjectWith (HeadMembersSay h)

/-- The members of a rule. -/
@[mk_iff]
structure RuleMembersSay (r : Rule) (members : List (String × Json)) : Prop where
  name : Has "name" (· = .str r.name.text) members
  goal : Has "naturalLanguageGoal" (· = .str r.goal) members
  head : Has "ruleHead" (SaysHead r.head) members
  body : Has "ruleBody" (SaysList SaysClause r.body) members

/-- An answer says a rule. -/
def SaysRule (r : Rule) : Json → Prop := IsObjectWith (RuleMembersSay r)

/-- The members of a query. -/
@[mk_iff]
structure QueryMembersSay (q : Query) (members : List (String × Json)) : Prop where
  name : Has "name" (· = .str q.name.text) members
  description : Has "description" (· = .str q.description) members
  find : Has "find" (· = .arr (q.find.map .str)) members
  atoms : Has "where" (SaysList SaysAtom q.atoms) members

/-- An answer says a query. -/
def SaysQuery (q : Query) : Json → Prop := IsObjectWith (QueryMembersSay q)

/-- The members of a program. -/
@[mk_iff]
structure ProgramMembersSay (p : Program) (members : List (String × Json)) : Prop where
  rules : Has "rules" (SaysList SaysRule p.rules) members
  queries : Has "queries" (SaysList SaysQuery p.queries) members

/-- An answer says a program. -/
def SaysProgram (p : Program) : Json → Prop := IsObjectWith (ProgramMembersSay p)

end Answer

/-! ### Programs as checked answers -/

/-- The scalar that a term is. -/
def Term.toScalar : Term → Scalar
  | .text s => .text s
  | .int n => .int n
  | .double x => .double (.finite x)
  | .bool b => .bool b

@[simp] theorem Term.toJson_toScalar (t : Term) : t.toScalar.toJson = t.toJson := by
  cases t <;> rfl

theorem Operator.symbol_mem (o : Operator) : o.symbol ∈ Operator.all.map Operator.symbol :=
  List.mem_map_of_mem (by cases o <;> decide)

/-- What the check of an answer ends with that says an atom. -/
def Atom.toAnswer (a : Atom) : atomFields.Carrier :=
  ((), a.predicate.text, a.args.map Term.toScalar, a.isNegated, ())

/-- What the check of an answer ends with that says a comparison. -/
def Comparison.toAnswer (c : Comparison) : comparisonFields.Carrier :=
  ((), c.left, ⟨c.operator.symbol, c.operator.symbol_mem⟩, c.right.toScalar, ())

/-- What the check of an answer ends with that says a clause. -/
def Clause.toAnswer : Clause → clauseShape.Carrier
  | .atom a => .inl a.toAnswer
  | .comparison c => .inr (.inl c.toAnswer)

/-- What the check of an answer ends with that says a head. -/
def Head.toAnswer (h : Head) : headShape.Carrier :=
  (h.predicate.text, h.args, ())

/-- What the check of an answer ends with that says a rule. -/
def Rule.toAnswer (r : Rule) : ruleShape.Carrier :=
  (r.name.text, r.goal, r.head.toAnswer, r.body.map Clause.toAnswer, ())

/-- What the check of an answer ends with that says a query. -/
def Query.toAnswer (q : Query) : queryShape.Carrier :=
  (q.name.text, q.description, q.find, q.atoms.map Atom.toAnswer, ())

/-- What the check of an answer ends with that says a program. -/
def Program.toAnswer (p : Program) : programShape.Carrier :=
  (p.rules.map Rule.toAnswer, p.queries.map Query.toAnswer, ())

/-! ### Building -/

theorem textPart_injective : Function.Injective textPart := fun _ _ h =>
  Json.str.inj (Part.json.inj h)

theorem Scalar.toPart_injective : Function.Injective Scalar.toPart := by
  intro x y h
  have hjson : x.toJson = y.toJson := Part.json.inj h
  cases x <;> cases y <;> cases hjson <;> rfl

theorem Term.toPart_toScalar (t : Term) : t.toScalar.toPart = .json t.toJson := by
  rw [Scalar.toPart, toJson_toScalar]

theorem items?_list_map {α : Type} {write : α → Part} (hwrite : Function.Injective write)
    {xs ys : List α} : (Part.list (xs.map write)).items? = some (ys.map write) ↔ xs = ys := by
  rw [Part.items?, Option.some.injEq]
  exact (List.map_injective_iff.mpr hwrite).eq_iff

theorem items?_scalars {xs : List Scalar} {ts : List Term} :
    (Part.list (xs.map Scalar.toPart)).items? = some (ts.map fun t => .json t.toJson) ↔
      xs = ts.map Term.toScalar := by
  have hparts : (ts.map fun t => Part.json t.toJson) = (ts.map Term.toScalar).map Scalar.toPart := by
    simp [Term.toPart_toScalar]
  rw [hparts, items?_list_map Scalar.toPart_injective]

theorem atomOfAnswer?_eq_ok {c : atomFields.Carrier} {a : Atom} :
    atomOfAnswer? c = .ok a ↔ c = a.toAnswer := by
  obtain ⟨⟨⟩, predicate, args, isNegated, ⟨⟩⟩ := c
  refine AtomDraft.build_eq_ok.trans ⟨?_, ?_⟩
  · rintro ⟨hpredicate, hargs, hnegated⟩
    obtain rfl := textPart_injective hpredicate
    obtain rfl := items?_scalars.mp hargs
    obtain rfl := Json.bool.inj (Part.json.inj hnegated)
    rfl
  · intro h
    cases h
    exact ⟨rfl, items?_scalars.mpr rfl, rfl⟩

theorem comparisonOfAnswer?_eq_ok {d : comparisonFields.Carrier} {c : Comparison} :
    comparisonOfAnswer? d = .ok c ↔ d = c.toAnswer := by
  obtain ⟨⟨⟩, left, ⟨operator, hoperator⟩, right, ⟨⟩⟩ := d
  refine ComparisonDraft.build_eq_ok.trans ⟨?_, ?_⟩
  · rintro ⟨hleft, hoperator, hright⟩
    obtain rfl := textPart_injective hleft
    obtain rfl := textPart_injective hoperator
    obtain rfl := Scalar.toPart_injective (hright.trans c.right.toPart_toScalar.symm)
    rfl
  · intro h
    cases h
    exact ⟨rfl, rfl, c.right.toPart_toScalar⟩

theorem clauseOfAnswer?_eq_ok {d : clauseShape.Carrier} {c : Clause} :
    clauseOfAnswer? d = .ok c ↔ d = c.toAnswer := by
  rcases d with a | e | ⟨⟨⟩⟩
  · refine map_build_eq_ok.trans ?_
    simp only [atomOfAnswer?_eq_ok]
    constructor
    · rintro ⟨a, rfl, rfl⟩
      rfl
    · cases c with
      | atom a => exact fun h => ⟨a, Sum.inl.inj h, rfl⟩
      | comparison c => exact nofun
  · refine map_build_eq_ok.trans ?_
    simp only [comparisonOfAnswer?_eq_ok]
    constructor
    · rintro ⟨c, rfl, rfl⟩
      rfl
    · cases c with
      | atom a => exact nofun
      | comparison c => exact fun h => ⟨c, Sum.inl.inj (Sum.inr.inj h), rfl⟩

theorem headOfAnswer?_eq_ok {d : headShape.Carrier} {h : Head} :
    headOfAnswer? d = .ok h ↔ d = h.toAnswer := by
  obtain ⟨predicate, args, ⟨⟩⟩ := d
  refine HeadDraft.build_eq_ok.trans ⟨?_, ?_⟩
  · rintro ⟨hpredicate, hargs⟩
    obtain rfl := textPart_injective hpredicate
    obtain rfl := (items?_list_map textPart_injective).mp hargs
    rfl
  · intro h
    cases h
    exact ⟨rfl, (items?_list_map textPart_injective).mpr rfl⟩

theorem ruleOfAnswer?_eq_ok {d : ruleShape.Carrier} {r : Rule} :
    ruleOfAnswer? d = .ok r ↔ d = r.toAnswer := by
  obtain ⟨name, goal, head, body, ⟨⟩⟩ := d
  simp only [ruleOfAnswer?, bind_eq_ok, headOfAnswer?_eq_ok, RuleDraft.build_eq_ok,
    Part.elements?_list_map Clause.toPart_injective, Part.head.injEq]
  constructor
  · rintro ⟨_, rfl, _, hbody, hname, hgoal, rfl, rfl⟩
    obtain rfl := (buildAll_eq_ok_of_encode fun _ _ => clauseOfAnswer?_eq_ok).mp hbody
    obtain rfl := textPart_injective hname
    obtain rfl := textPart_injective hgoal
    rfl
  · intro h
    cases h
    have hbody := (buildAll_eq_ok_of_encode fun _ _ => clauseOfAnswer?_eq_ok).mpr
      (Eq.refl (r.body.map Clause.toAnswer))
    exact ⟨_, rfl, _, hbody, rfl, rfl, rfl, rfl⟩

theorem queryOfAnswer?_eq_ok {d : queryShape.Carrier} {q : Query} :
    queryOfAnswer? d = .ok q ↔ d = q.toAnswer := by
  have hatom : Function.Injective Part.atom := fun _ _ h => Part.atom.inj h
  obtain ⟨name, description, find, atoms, ⟨⟩⟩ := d
  simp only [queryOfAnswer?, bind_eq_ok, QueryDraft.build_eq_ok, Part.elements?_list_map hatom]
  constructor
  · rintro ⟨_, hatoms, hname, hdescription, rfl, hfind⟩
    obtain rfl := (buildAll_eq_ok_of_encode fun _ _ => atomOfAnswer?_eq_ok).mp hatoms
    obtain rfl := textPart_injective hname
    obtain rfl := textPart_injective hdescription
    obtain rfl := (items?_list_map textPart_injective).mp hfind
    rfl
  · intro h
    cases h
    have hatoms := (buildAll_eq_ok_of_encode fun _ _ => atomOfAnswer?_eq_ok).mpr
      (Eq.refl (q.atoms.map Atom.toAnswer))
    exact ⟨_, hatoms, rfl, rfl, rfl, (items?_list_map textPart_injective).mpr rfl⟩

/-- **The parts of a checked answer make a program just when they are those of the program.** -/
theorem programOfAnswer?_eq_ok {d : programShape.Carrier} {p : Program} :
    programOfAnswer? d = .ok p ↔ d = p.toAnswer := by
  have hrule : Function.Injective Part.rule := fun _ _ h => Part.rule.inj h
  have hquery : Function.Injective Part.query := fun _ _ h => Part.query.inj h
  obtain ⟨rules, queries, ⟨⟩⟩ := d
  simp only [programOfAnswer?, bind_eq_ok, ProgramDraft.build_eq_ok,
    Part.elements?_list_map hrule, Part.elements?_list_map hquery]
  constructor
  · rintro ⟨_, hrules, _, hqueries, rfl, rfl⟩
    obtain rfl := (buildAll_eq_ok_of_encode fun _ _ => ruleOfAnswer?_eq_ok).mp hrules
    obtain rfl := (buildAll_eq_ok_of_encode fun _ _ => queryOfAnswer?_eq_ok).mp hqueries
    rfl
  · intro h
    cases h
    have hrules := (buildAll_eq_ok_of_encode fun _ _ => ruleOfAnswer?_eq_ok).mpr
      (Eq.refl (p.rules.map Rule.toAnswer))
    have hqueries := (buildAll_eq_ok_of_encode fun _ _ => queryOfAnswer?_eq_ok).mpr
      (Eq.refl (p.queries.map Query.toAnswer))
    exact ⟨_, hrules, _, hqueries, rfl, rfl⟩

/-! ### Checking -/

/-- A member that is due, in terms of what the check of its shape ends with. -/
theorem Fields.check_has {name description : String} {shape : Shape} {rest : Fields}
    {members : List (String × Json)} {a : shape.Carrier} {as : rest.Carrier} {P : Json → Prop}
    (h : ∀ v, shape.check v = .ok a ↔ P v) :
    (Fields.field name shape true description rest).check members = .ok (a, as) ↔
      Has name P members ∧ rest.check members = .ok as := by
  rw [check_required]
  simp only [h, Has]

theorem Fields.check_last {name description : String} {shape : Shape}
    {members : List (String × Json)} {a : shape.Carrier} {P : Json → Prop}
    (h : ∀ v, shape.check v = .ok a ↔ P v) :
    (Fields.field name shape true description .none).check members = .ok (a, ()) ↔
      Has name P members :=
  (check_has h).trans (and_iff_left rfl)

theorem Shape.check_saysList {α : Type} {item : Shape} {encode : α → item.Carrier}
    {R : α → Json → Prop} (h : ∀ a v, item.check v = .ok (encode a) ↔ R a v) (as : List α)
    (v : Json) : (Shape.list item).check v = .ok (as.map encode) ↔ Answer.SaysList R as v := by
  refine check_list.trans ?_
  simp only [List.forall₂_map_right_iff, h]
  cases v <;> simp [Answer.SaysList]

/-- The members of a record, in terms of what their check ends with. -/
theorem Shape.check_members {title : String} {fields : Fields} {a : fields.Carrier}
    {P : List (String × Json) → Prop} (h : ∀ members, fields.check members = .ok a ↔ P members)
    (v : Json) : (Shape.record title fields).check v = .ok a ↔ IsObjectWith P v := by
  refine check_record.trans ?_
  simp only [h]
  cases v <;> simp [IsObjectWith]

theorem Shape.check_text (s : String) (v : Json) : Shape.text.check v = .ok s ↔ v = .str s :=
  checkText_eq_ok

theorem Shape.check_scalar (t : Term) (v : Json) :
    Shape.scalar.check v = .ok t.toScalar ↔ v = t.toJson := by
  rw [← t.toJson_toScalar]
  exact checkScalar_eq_ok

theorem Shape.check_terms (ts : List Term) (v : Json) :
    (Shape.list .scalar).check v = .ok (ts.map Term.toScalar) ↔ v = .arr (ts.map Term.toJson) := by
  have hjson : (ts.map Term.toScalar).map Scalar.toJson = ts.map Term.toJson := by simp
  exact hjson ▸ check_scalars

theorem Shape.check_tag (word : String) (v : Json) :
    (Shape.tag word).check v = .ok () ↔ v = .str word :=
  checkTag_eq_ok

theorem Shape.check_operator (o : Operator) (v : Json) :
    (Shape.choice (Operator.all.map Operator.symbol)).check v = .ok ⟨o.symbol, o.symbol_mem⟩ ↔
      v = .str o.symbol :=
  checkChoice_eq_ok

theorem check_isNegated {members : List (String × Json)} {b : Bool} :
    Shape.checkField Shape.checkFlag (some false) (Json.lookup "isNegated" members) = .ok b ↔
      (fieldOr "isNegated" (.bool false) members).StandsFor b := by
  rw [fieldOr]
  cases Json.lookup "isNegated" members with
  | none => simp [Shape.checkField, StandsFor]
  | some v => simp [Shape.checkField, Shape.flag?_eq_some]

theorem check_type {members : List (String × Json)} {word : String} :
    Shape.checkField (Shape.checkTag word) (some ()) (Json.lookup "type" members) = .ok () ↔
      MayHave "type" (· = .str word) members := by
  unfold MayHave
  cases Json.lookup "type" members <;> simp [Shape.checkField]

theorem check_atomFields (a : Atom) (members : List (String × Json)) :
    atomFields.check members = .ok a.toAnswer ↔
      MayHave "type" (· = .str "atom") members ∧ Answer.AtomMembersSay a members := by
  rw [Answer.atomMembersSay_iff]
  refine Fields.check_eq_ok.trans (and_congr check_type ?_)
  refine (Fields.check_has (Shape.check_text _)).trans (and_congr_right' ?_)
  refine (Fields.check_has (Shape.check_terms _)).trans (and_congr_right' ?_)
  exact Fields.check_eq_ok.trans ((and_iff_left rfl).trans check_isNegated)

theorem check_comparisonFields (c : Comparison) (members : List (String × Json)) :
    comparisonFields.check members = .ok c.toAnswer ↔
      Has "type" (· = .str "comparison") members ∧ Answer.ComparisonMembersSay c members := by
  rw [Answer.comparisonMembersSay_iff]
  refine (Fields.check_has (Shape.check_tag _)).trans (and_congr_right' ?_)
  refine (Fields.check_has (Shape.check_text _)).trans (and_congr_right' ?_)
  refine (Fields.check_has (Shape.check_operator _)).trans (and_congr_right' ?_)
  exact Fields.check_last (Shape.check_scalar _)

theorem check_atomShape (a : Atom) (v : Json) :
    atomShape.check v = .ok a.toAnswer ↔ Answer.SaysAtom a v :=
  Shape.check_members (check_atomFields a) v

theorem check_clauseShape (c : Clause) (v : Json) :
    clauseShape.check v = .ok c.toAnswer ↔ Answer.SaysClause c v := by
  refine Shape.check_tagged.trans ⟨?_, ?_⟩
  · rintro ⟨members, word, rfl, htype, hbranch⟩
    rcases Branches.check_branch.mp hbranch with ⟨rfl, x, hx, heq⟩ | ⟨-, x, hx, heq⟩
    · cases c with
      | atom a =>
        cases heq
        exact ⟨⟨_, htype, rfl⟩, ((check_atomFields a members).mp hx).2⟩
      | comparison c => cases heq
    · rcases Branches.check_branch.mp hx with ⟨rfl, y, hy, rfl⟩ | ⟨-, y, -, -⟩
      · cases c with
        | atom a => cases heq
        | comparison c =>
          cases heq
          exact (check_comparisonFields c members).mp hy
      · exact y.elim
  · intro h
    cases v with
    | obj members =>
      cases c with
      | atom a =>
        obtain ⟨htype, hatom⟩ := h
        have hx := (check_atomFields a members).mpr ⟨htype.mayHave, hatom⟩
        obtain ⟨_, htype, rfl⟩ := htype
        exact ⟨members, _, rfl, htype, Branches.check_branch.mpr (Or.inl ⟨rfl, _, hx, rfl⟩)⟩
      | comparison c =>
        have hx := (check_comparisonFields c members).mpr h
        obtain ⟨⟨_, htype, rfl⟩, -⟩ := h
        refine ⟨members, _, rfl, htype, Branches.check_branch.mpr (Or.inr ⟨by decide, _, ?_, rfl⟩)⟩
        exact Branches.check_branch.mpr (Or.inl ⟨rfl, _, hx, rfl⟩)
    | _ => cases c <;> exact h.elim

theorem check_headShape (h : Head) (v : Json) :
    headShape.check v = .ok h.toAnswer ↔ Answer.SaysHead h v := by
  refine Shape.check_members (fun members => ?_) v
  rw [Answer.headMembersSay_iff]
  refine (Fields.check_has (Shape.check_text _)).trans (and_congr_right' ?_)
  exact Fields.check_last fun _ => Shape.check_texts

theorem check_ruleShape (r : Rule) (v : Json) :
    ruleShape.check v = .ok r.toAnswer ↔ Answer.SaysRule r v := by
  refine Shape.check_members (fun members => ?_) v
  rw [Answer.ruleMembersSay_iff]
  refine (Fields.check_has (Shape.check_text _)).trans (and_congr_right' ?_)
  refine (Fields.check_has (Shape.check_text _)).trans (and_congr_right' ?_)
  refine (Fields.check_has (check_headShape _)).trans (and_congr_right' ?_)
  exact Fields.check_last (Shape.check_saysList check_clauseShape _)

theorem check_queryShape (q : Query) (v : Json) :
    queryShape.check v = .ok q.toAnswer ↔ Answer.SaysQuery q v := by
  refine Shape.check_members (fun members => ?_) v
  rw [Answer.queryMembersSay_iff]
  refine (Fields.check_has (Shape.check_text _)).trans (and_congr_right' ?_)
  refine (Fields.check_has (Shape.check_text _)).trans (and_congr_right' ?_)
  refine (Fields.check_has fun _ => Shape.check_texts).trans (and_congr_right' ?_)
  exact Fields.check_last (Shape.check_saysList check_atomShape _)

/-- **The check of an answer ends with the parts of a program just when the answer says it.** -/
theorem check_programShape (p : Program) (v : Json) :
    programShape.check v = .ok p.toAnswer ↔ Answer.SaysProgram p v := by
  refine Shape.check_members (fun members => ?_) v
  rw [Answer.programMembersSay_iff]
  refine (Fields.check_has (Shape.check_saysList check_ruleShape _)).trans (and_congr_right' ?_)
  exact Fields.check_last (Shape.check_saysList check_queryShape _)

end DatalogIntake
