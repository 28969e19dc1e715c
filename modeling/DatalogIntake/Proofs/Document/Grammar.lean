import DatalogIntake.Proofs.Document.NormalForm
import DatalogIntake.Proofs.Program.Violations
import Mathlib.Data.List.Nodup
import Mathlib.Data.Set.List

/-!
# The grammar of documents

Which values are documents, member by member: what has to be there, what may be left out, and what
each member has to be. A value is the document of a program (`Document.IsProgram`) just when its
normal form is that of a program, so the grammar says which values are read and the normal form says
as what.

* `Program.ofJson?_iff`: reading a document ends with a program or with a broken rule; it ends with
  a program just when the value keeps to the grammar, and the document of that program is the normal
  form of the value. -/

namespace DatalogIntake

/-! ### Values without parts -/

namespace Json

/-- A string that passes the test for names. -/
def IsName : Json → Prop
  | .str s => Name.isName s.toList = true
  | _ => False

/-- One of the six operators. -/
def IsOperator : Json → Prop
  | .str s => s ∈ ["<", ">", "<=", ">=", "==", "!="]
  | _ => False

/-- A term: a string, a truth value, an integer or a finite double. -/
def IsTerm : Json → Prop
  | .str _ => True
  | .bool _ => True
  | .int _ => True
  | .double (.finite _) => True
  | _ => False

theorem isName_iff {v : Json} : v.IsName ↔ ∃ name : Name, v = .str name.text := by
  constructor
  · intro h
    cases v with
    | str s => exact ⟨⟨s, h⟩, rfl⟩
    | _ => exact h.elim
  · rintro ⟨name, rfl⟩
    exact name.isName_text

theorem isOperator_iff {v : Json} : v.IsOperator ↔ ∃ o : Operator, v = .str o.symbol := by
  constructor
  · intro h
    cases v with
    | str s =>
      have hall : ∀ s ∈ ["<", ">", "<=", ">=", "==", "!="], ∃ o : Operator, s = o.symbol := by
        simp only [List.forall_mem_cons, List.not_mem_nil, false_implies, implies_true, and_true]
        exact ⟨⟨.less, rfl⟩, ⟨.greater, rfl⟩, ⟨.lessOrEqual, rfl⟩, ⟨.greaterOrEqual, rfl⟩,
          ⟨.equal, rfl⟩, ⟨.notEqual, rfl⟩⟩
      obtain ⟨o, rfl⟩ := hall s h
      exact ⟨o, rfl⟩
    | _ => exact h.elim
  · rintro ⟨o, rfl⟩
    cases o <;> simp [IsOperator, Operator.symbol]

theorem isTerm_iff {v : Json} : v.IsTerm ↔ ∃ t : Term, v = t.toJson := by
  constructor
  · intro h
    unfold IsTerm at h
    split at h
    · exact ⟨.text _, rfl⟩
    · exact ⟨.bool _, rfl⟩
    · exact ⟨.int _, rfl⟩
    · exact ⟨.double _, rfl⟩
    · exact h.elim
  · rintro ⟨t, rfl⟩
    cases t <;> trivial

/-! ### Lists -/

section Lists

variable {α : Type} {P : Json → Prop} {normal : Json → Json} {encode : α → Json}

/-- Every item comes out as one that is encoded just when the list comes out as such a list. -/
theorem forall_exists_iff (h : ∀ i, P i ↔ ∃ a, normal i = encode a) {items : List Json} :
    (∀ i ∈ items, P i) ↔ ∃ l : List α, items.map normal = l.map encode := by
  have hrange : (∃ l : List α, items.map normal = l.map encode) ↔
      items.map normal ∈ Set.range (List.map encode) := by
    simp only [Set.mem_range, eq_comm]
  rw [hrange, Set.range_list_map]
  simp only [Set.mem_ofPred_eq, List.forall_mem_map, Set.mem_range, h, eq_comm]

theorem isListOf_iff (h : ∀ i, P i ↔ ∃ a, normal i = encode a) {v : Json} :
    IsListOf P v ↔ ∃ l : List α, changeItems normal v = .arr (l.map encode) := by
  cases v with
  | arr items => simpa [IsListOf, changeItems] using forall_exists_iff h
  | _ => simp [IsListOf, changeItems]

theorem isNonemptyListOf_iff (h : ∀ i, P i ↔ ∃ a, normal i = encode a) {v : Json} :
    IsNonemptyListOf P v ↔ ∃ l : List α, l ≠ [] ∧ changeItems normal v = .arr (l.map encode) := by
  cases v with
  | arr items =>
    simp only [IsNonemptyListOf, changeItems, Json.arr.injEq, forall_exists_iff h]
    constructor
    · rintro ⟨hne, l, hl⟩
      refine ⟨l, ?_, hl⟩
      rintro rfl
      exact hne (List.map_eq_nil_iff.mp hl)
    · rintro ⟨l, hne, hl⟩
      refine ⟨?_, l, hl⟩
      rintro rfl
      exact hne (List.map_eq_nil_iff.mp hl.symm)
  | _ => simp [IsNonemptyListOf, changeItems]

theorem forall_encoded_iff (h : ∀ i, P i ↔ ∃ a, i = encode a) {items : List Json} :
    (∀ i ∈ items, P i) ↔ ∃ l : List α, items = l.map encode := by
  have hid : ∀ i, P i ↔ ∃ a, id i = encode a := h
  rw [forall_exists_iff hid, List.map_id]

theorem isListOf_encoded_iff (h : ∀ i, P i ↔ ∃ a, i = encode a) {v : Json} :
    IsListOf P v ↔ ∃ l : List α, v = .arr (l.map encode) := by
  cases v with
  | arr items => simpa [IsListOf] using forall_encoded_iff h
  | _ => simp [IsListOf]

end Lists

theorem areNonemptyTexts_iff {items : List Json} :
    (∀ i ∈ items, i.IsNonemptyText) ↔
      ∃ l : List String, (∀ s ∈ l, s ≠ "") ∧ items = l.map .str := by
  have hencoded : ∀ v : Json, v.IsNonemptyText ↔
      ∃ s : { s : String // s ≠ "" }, v = .str s.val := by
    simp [isNonemptyText_iff]
  rw [forall_encoded_iff hencoded]
  constructor
  · rintro ⟨l, rfl⟩
    refine ⟨l.map Subtype.val, fun _ hs => ?_, by simp⟩
    obtain ⟨s, -, rfl⟩ := List.mem_map.mp hs
    exact s.property
  · rintro ⟨l, hne, rfl⟩
    exact ⟨l.attach.map fun s => ⟨s.val, hne s.val s.property⟩, by simp⟩

end Json

/-! ### The grammar -/

namespace Document

open Json

/-- The members of an atom beside its type. -/
structure AtomMembers (members : List (String × Json)) : Prop where
  predicate : Has "predicate" IsName members
  args : MayHave "args" (IsListOf IsTerm) members
  isNegated : MayHave "isNegated" IsBool members

/-- The members of a comparison beside its type. -/
structure ComparisonMembers (members : List (String × Json)) : Prop where
  left : Has "variable" IsNonemptyText members
  operator : Has "operator" IsOperator members
  right : Has "value" IsTerm members

/-- An atom, whose type may be left out. -/
def IsAtom : Json → Prop :=
  IsObjectWith fun members => MayHave "type" (· = .str "atom") members ∧ AtomMembers members

/-- A clause: an atom or a comparison, as its type says. -/
def IsClause : Json → Prop :=
  IsObjectWith fun members =>
    (Has "type" (· = .str "atom") members ∧ AtomMembers members) ∨
      (Has "type" (· = .str "comparison") members ∧ ComparisonMembers members)

/-- The members of a head. -/
structure HeadMembers (members : List (String × Json)) : Prop where
  predicate : Has "predicate" IsName members
  args : MayHave "args" (IsListOf IsText) members

/-- A head. -/
def IsHead : Json → Prop := IsObjectWith HeadMembers

/-- The members of a rule. -/
structure RuleMembers (members : List (String × Json)) : Prop where
  name : Has "name" IsName members
  goal : MayHave "naturalLanguageGoal" IsText members
  head : Has "head" IsHead members
  body : Has "body" (IsNonemptyListOf IsClause) members

/-- A rule. -/
def IsRule : Json → Prop := IsObjectWith RuleMembers

/-- The members of a query. -/
structure QueryMembers (members : List (String × Json)) : Prop where
  name : Has "name" IsName members
  description : MayHave "description" IsText members
  find : MayHave "find" (IsListOf IsNonemptyText) members
  atoms : Has "where" (IsNonemptyListOf IsAtom) members

/-- A query. -/
def IsQuery : Json → Prop := IsObjectWith QueryMembers

/-- The members of a program. No two queries have one name. -/
structure ProgramMembers (members : List (String × Json)) : Prop where
  rules : MayHave "rules" (IsListOf IsRule) members
  queries : MayHave "queries" (IsListOf IsQuery) members
  distinct : (((Json.obj members).itemsAt "queries").map (Json.member "name")).Nodup

/-- A program. -/
def IsProgram : Json → Prop := IsObjectWith ProgramMembers

/-! ### Members -/

section Members

variable {members : List (String × Json)} {key : String}

theorem has_name_iff : Has key IsName members ↔ ∃ name : Name, field key members = .str name.text :=
  (has_iff id).trans isName_iff

theorem has_term_iff : Has key IsTerm members ↔ ∃ t : Term, field key members = t.toJson :=
  (has_iff id).trans isTerm_iff

theorem mayHave_text_iff :
    MayHave key IsText members ↔ ∃ s, fieldOr key (.str "") members = .str s :=
  (mayHave_iff trivial).trans isText_iff

theorem mayHave_bool_iff (b : Bool) :
    MayHave key IsBool members ↔ ∃ b', fieldOr key (.bool b) members = .bool b' :=
  (mayHave_iff trivial).trans isBool_iff

theorem mayHave_list_iff {α : Type} {P : Json → Prop} {normal : Json → Json} {encode : α → Json}
    (h : ∀ i, P i ↔ ∃ a, normal i = encode a) :
    MayHave key (IsListOf P) members ↔
      ∃ l : List α, changeItems normal (fieldOr key (.arr []) members) = .arr (l.map encode) :=
  (mayHave_iff (by simp [IsListOf])).trans (isListOf_iff h)

theorem mayHave_encoded_iff {α : Type} {P : Json → Prop} {encode : α → Json}
    (h : ∀ i, P i ↔ ∃ a, i = encode a) :
    MayHave key (IsListOf P) members ↔
      ∃ l : List α, fieldOr key (.arr []) members = .arr (l.map encode) :=
  (mayHave_iff (by simp [IsListOf])).trans (isListOf_encoded_iff h)

theorem has_list_iff {α : Type} {P : Json → Prop} {normal : Json → Json} {encode : α → Json}
    (h : ∀ i, P i ↔ ∃ a, normal i = encode a) :
    Has key (IsNonemptyListOf P) members ↔
      ∃ l : List α, l ≠ [] ∧
        changeItems normal (fieldOr key (.arr []) members) = .arr (l.map encode) :=
  (has_iff_fieldOr (by simp [IsNonemptyListOf])).trans (isNonemptyListOf_iff h)

end Members

/-! ### Clauses -/

theorem atomMembers_iff {members : List (String × Json)} :
    AtomMembers members ↔ ∃ a : Atom, field "predicate" members = .str a.predicate.text ∧
      fieldOr "args" (.arr []) members = .arr (a.args.map Term.toJson) ∧
      fieldOr "isNegated" (.bool false) members = .bool a.isNegated := by
  constructor
  · rintro ⟨hpredicate, hargs, hnegated⟩
    obtain ⟨name, hname⟩ := has_name_iff.mp hpredicate
    obtain ⟨args, hargs⟩ := (mayHave_encoded_iff fun _ => isTerm_iff).mp hargs
    obtain ⟨b, hb⟩ := (mayHave_bool_iff false).mp hnegated
    exact ⟨⟨name, args, b⟩, hname, hargs, hb⟩
  · rintro ⟨a, hname, hargs, hb⟩
    exact ⟨has_name_iff.mpr ⟨_, hname⟩, (mayHave_encoded_iff fun _ => isTerm_iff).mpr ⟨_, hargs⟩,
      (mayHave_bool_iff false).mpr ⟨_, hb⟩⟩

theorem comparisonMembers_iff {members : List (String × Json)} :
    ComparisonMembers members ↔ ∃ c : Comparison, field "variable" members = .str c.left ∧
      field "operator" members = .str c.operator.symbol ∧
      field "value" members = c.right.toJson := by
  have hleft : Has "variable" IsNonemptyText members ↔
      ∃ s ≠ "", field "variable" members = .str s := (has_iff id).trans isNonemptyText_iff
  have hoperator : Has "operator" IsOperator members ↔
      ∃ o : Operator, field "operator" members = .str o.symbol := (has_iff id).trans isOperator_iff
  constructor
  · rintro ⟨hl, ho, hr⟩
    obtain ⟨left, hne, hl⟩ := hleft.mp hl
    obtain ⟨operator, ho⟩ := hoperator.mp ho
    obtain ⟨right, hr⟩ := has_term_iff.mp hr
    exact ⟨⟨left, operator, right, hne⟩, hl, ho, hr⟩
  · rintro ⟨c, hl, ho, hr⟩
    exact ⟨hleft.mpr ⟨_, c.left_ne, hl⟩, hoperator.mpr ⟨_, ho⟩, has_term_iff.mpr ⟨_, hr⟩⟩

theorem isAtom_iff {v : Json} : IsAtom v ↔ ∃ a : Atom, normalAtom v = a.toJson := by
  cases v with
  | obj members =>
    have htype : MayHave "type" (· = .str "atom") members ↔
        fieldOr "type" (.str "atom") members = .str "atom" := mayHave_iff rfl
    simp only [IsAtom, IsObjectWith, htype, atomMembers_iff, normalAtom, changeMembers, Atom.toJson]
    simp
  | _ => simp [IsAtom, IsObjectWith, normalAtom, changeMembers, Atom.toJson]

theorem isClause_iff {v : Json} : IsClause v ↔ ∃ c : Clause, normalClause v = c.toJson := by
  simp only [← Clause.ofJson?_eq_ok]
  cases v with
  | obj members =>
    have htype : ∀ word, Has "type" (· = .str word) members ↔ field "type" members = .str word :=
      fun word => has_iff (by simp)
    simp only [IsClause, IsObjectWith, htype, Clause.ofJson?_obj]
    by_cases hatom : field "type" members = .str "atom"
    · have hmay : MayHave "type" (· = .str "atom") members := fun v hv => field_of_lookup hv ▸ hatom
      have hmembers : AtomMembers members ↔ ∃ a, Atom.ofJson? (.obj members) = .ok a := by
        simp only [Atom.ofJson?_eq_ok, ← isAtom_iff]
        simp [IsAtom, IsObjectWith, hmay]
      simp [hatom, hmembers, map_build_eq_ok]
    by_cases hcomparison : field "type" members = .str "comparison"
    · simp [hcomparison, comparisonMembers_iff, map_build_eq_ok, Comparison.ofJson?_eq_ok]
    · simp [hatom, hcomparison]
  | _ => simp [IsClause, IsObjectWith, Clause.ofJson?, Json.fieldsOr, bind_eq_ok]

/-! ### Rules and queries -/

theorem isHead_iff {v : Json} : IsHead v ↔ ∃ h : Head, normalHead v = h.toJson := by
  cases v with
  | obj members =>
    have hmembers : IsHead (.obj members) ↔ HeadMembers members := Iff.rfl
    simp only [hmembers, normalHead, changeMembers, Head.toJson, Json.obj.injEq, List.cons.injEq,
      Prod.mk.injEq, true_and, and_true]
    constructor
    · rintro ⟨hpredicate, hargs⟩
      obtain ⟨name, hname⟩ := has_name_iff.mp hpredicate
      obtain ⟨args, hargs⟩ := (mayHave_encoded_iff fun _ => isText_iff).mp hargs
      exact ⟨⟨name, args⟩, hname, hargs⟩
    · rintro ⟨h, hname, hargs⟩
      exact ⟨has_name_iff.mpr ⟨_, hname⟩, (mayHave_encoded_iff fun _ => isText_iff).mpr ⟨_, hargs⟩⟩
  | _ => simp [IsHead, IsObjectWith, normalHead, changeMembers, Head.toJson]

theorem isRule_iff {v : Json} : IsRule v ↔ ∃ r : Rule, normalRule v = r.toJson := by
  cases v with
  | obj members =>
    have hmembers : IsRule (.obj members) ↔ RuleMembers members := Iff.rfl
    have hhead : Has "head" IsHead members ↔
        ∃ h : Head, normalHead (field "head" members) = h.toJson := (has_iff id).trans isHead_iff
    simp only [hmembers, normalRule, changeMembers, Rule.toJson, Json.obj.injEq, List.cons.injEq,
      Prod.mk.injEq, true_and, and_true]
    constructor
    · rintro ⟨hn, hg, hh, hb⟩
      obtain ⟨name, hname⟩ := has_name_iff.mp hn
      obtain ⟨goal, hgoal⟩ := mayHave_text_iff.mp hg
      obtain ⟨head, hhead⟩ := hhead.mp hh
      obtain ⟨body, hne, hbody⟩ := (has_list_iff fun _ => isClause_iff).mp hb
      exact ⟨⟨name, goal, head, body, hne⟩, hname, hgoal, hhead, hbody⟩
    · rintro ⟨r, hname, hgoal, hh, hbody⟩
      exact ⟨has_name_iff.mpr ⟨_, hname⟩, mayHave_text_iff.mpr ⟨_, hgoal⟩, hhead.mpr ⟨_, hh⟩,
        (has_list_iff fun _ => isClause_iff).mpr ⟨_, r.body_ne, hbody⟩⟩
  | _ => simp [IsRule, IsObjectWith, normalRule, changeMembers, Rule.toJson]

theorem mayHave_variables_iff {members : List (String × Json)} {key : String} :
    MayHave key (IsListOf IsNonemptyText) members ↔
      ∃ l : List String, (∀ s ∈ l, s ≠ "") ∧ fieldOr key (.arr []) members = .arr (l.map .str) := by
  have hdefault : IsListOf IsNonemptyText (.arr []) := by simp [IsListOf]
  rw [mayHave_iff hdefault]
  cases fieldOr key (.arr []) members with
  | arr items => simp [IsListOf, areNonemptyTexts_iff]
  | _ => simp [IsListOf]

theorem isQuery_iff {v : Json} : IsQuery v ↔ ∃ q : Query, normalQuery v = q.toJson := by
  cases v with
  | obj members =>
    have hmembers : IsQuery (.obj members) ↔ QueryMembers members := Iff.rfl
    simp only [hmembers, normalQuery, changeMembers, Query.toJson, Json.obj.injEq, List.cons.injEq,
      Prod.mk.injEq, true_and, and_true]
    constructor
    · rintro ⟨hn, hd, hf, ha⟩
      obtain ⟨name, hname⟩ := has_name_iff.mp hn
      obtain ⟨description, hdescription⟩ := mayHave_text_iff.mp hd
      obtain ⟨find, hfind_ne, hfind⟩ := mayHave_variables_iff.mp hf
      obtain ⟨atoms, hne, hatoms⟩ := (has_list_iff fun _ => isAtom_iff).mp ha
      exact ⟨⟨name, description, find, atoms, hne, hfind_ne⟩, hname, hdescription, hfind, hatoms⟩
    · rintro ⟨q, hname, hdescription, hfind, hatoms⟩
      exact ⟨has_name_iff.mpr ⟨_, hname⟩, mayHave_text_iff.mpr ⟨_, hdescription⟩,
        mayHave_variables_iff.mpr ⟨_, q.find_ne, hfind⟩,
        (has_list_iff fun _ => isAtom_iff).mpr ⟨_, q.atoms_ne, hatoms⟩⟩
  | _ => simp [IsQuery, IsObjectWith, normalQuery, changeMembers, Query.toJson]

/-! ### Programs -/

theorem member_name_of_normalQuery {v : Json} {q : Query} (h : normalQuery v = q.toJson) :
    v.member "name" = .str q.name.text := by
  cases v with
  | obj members =>
    simp only [normalQuery, changeMembers, Query.toJson, Json.obj.injEq, List.cons.injEq,
      Prod.mk.injEq, true_and, and_true] at h
    exact h.1
  | _ => cases h

theorem names_nodup_iff {R : Json → Query → Prop} {items : List Json} {queries : List Query}
    (hname : ∀ v q, R v q → v.member "name" = .str q.name.text)
    (h : List.Forall₂ R items queries) :
    (items.map (Json.member "name")).Nodup ↔ (queries.map fun q => q.name.text).Nodup := by
  have hnames : items.map (Json.member "name") =
      (queries.map fun q => q.name.text).map Json.str := by
    rw [← List.forall₂_eq_eq_eq, List.map_map, List.forall₂_map_left_iff,
      List.forall₂_map_right_iff]
    exact h.imp hname
  rw [hnames, List.nodup_map_iff fun _ _ => Json.str.inj]

theorem names_of_normalQueries {members : List (String × Json)} {queries : List Query}
    (h : changeItems normalQuery (fieldOr "queries" (.arr []) members) =
      .arr (queries.map Query.toJson)) :
    (((Json.obj members).itemsAt "queries").map (Json.member "name")).Nodup ↔
      (queries.map fun q => q.name.text).Nodup := by
  obtain ⟨items, hitems, hnormal⟩ := changeItems_eq_arr.mp h
  rw [← List.forall₂_eq_eq_eq, List.forall₂_map_left_iff, List.forall₂_map_right_iff] at hnormal
  rw [itemsAt_of_fieldOr hitems]
  exact names_nodup_iff (fun _ _ => member_name_of_normalQuery) hnormal

/-- **The documents that keep to the grammar are those whose normal form is that of a program.** -/
theorem isProgram_iff {v : Json} : IsProgram v ↔ ∃ p : Program, normalProgram v = p.toJson := by
  cases v with
  | obj members =>
    have hmembers : IsProgram (.obj members) ↔ ProgramMembers members := Iff.rfl
    simp only [hmembers, normalProgram, changeMembers, Program.toJson, Json.obj.injEq,
      List.cons.injEq, Prod.mk.injEq, true_and, and_true]
    constructor
    · rintro ⟨hr, hq, hdistinct⟩
      obtain ⟨rules, hrules⟩ := (mayHave_list_iff fun _ => isRule_iff).mp hr
      obtain ⟨queries, hqueries⟩ := (mayHave_list_iff fun _ => isQuery_iff).mp hq
      have hnodup := (names_of_normalQueries hqueries).mp hdistinct
      exact ⟨⟨rules, queries, hnodup⟩, hrules, hqueries⟩
    · rintro ⟨p, hrules, hqueries⟩
      exact ⟨(mayHave_list_iff fun _ => isRule_iff).mpr ⟨_, hrules⟩,
        (mayHave_list_iff fun _ => isQuery_iff).mpr ⟨_, hqueries⟩,
        (names_of_normalQueries hqueries).mpr p.names_nodup⟩
  | _ => simp [IsProgram, IsObjectWith, normalProgram, changeMembers, Program.toJson]

end Document

/-! ### Reading documents -/

/-- **What is read as a program, and as which.** Reading a value ends with a program or with a broken
rule of the program model. It ends with a program just when the value keeps to the grammar of
documents, and the document of the program is then the normal form of the value. -/
theorem Program.ofJson?_iff (v : Json) :
    ((∃ p, Program.ofJson? v = .ok p) ∨ ∃ e, Program.ofJson? v = .error (.violation e)) ∧
      ((∃ p, Program.ofJson? v = .ok p) ↔ Document.IsProgram v) ∧
      ∀ p, Program.ofJson? v = .ok p ↔ Document.normalProgram v = p.toJson := by
  refine ⟨(Program.ofJson?_refusesOnly v).cases, ?_, fun p => Program.ofJson?_eq_ok⟩
  simp only [Program.ofJson?_eq_ok, Document.isProgram_iff]

end DatalogIntake
